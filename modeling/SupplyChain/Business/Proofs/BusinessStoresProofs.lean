import SupplyChain.Business.BusinessStores
import SupplyChain.Collections.Proofs.InsertionMapProofs

/-!
# Proofs: when the two business stores are alike

The store in memory mirrors the table as long as each operation fits. An operation that does not fit comes to
something else in the one store than in the other.
-/

namespace Collections

/-- With unique keys, a search for a key finds the one item that has it. -/
theorem find?_key_iff {α κ : Type} [DecidableEq κ] {key : α → κ} {items : List α} {k : κ} {item : α}
    (hunique : (items.map key).Nodup) :
    items.find? (fun x => key x = k) = some item ↔ item ∈ items ∧ key item = k := by
  induction items with
  | nil => simp
  | cons x items ih =>
    obtain ⟨hnew, hunique⟩ := List.nodup_cons.mp hunique
    by_cases hx : key x = k
    · have hfound : (x :: items).find? (fun x => key x = k) = some x := by simp [hx]
      rw [hfound]
      constructor
      · rintro ⟨⟩
        exact ⟨List.mem_cons_self, hx⟩
      · rintro ⟨hitem, hkey⟩
        rcases List.mem_cons.mp hitem with rfl | hlater
        · rfl
        · exact absurd (hx.trans hkey.symm ▸ List.mem_map_of_mem hlater) hnew
    · rw [List.find?_cons_of_neg (by simpa using hx), ih hunique, List.mem_cons]
      constructor
      · exact fun h => ⟨.inr h.1, h.2⟩
      · rintro ⟨rfl | hitem, hkey⟩
        · exact absurd hkey hx
        · exact ⟨hitem, hkey⟩

/-- An item with a new key at the end is what a search for its key finds. -/
theorem find?_key_concat {α κ : Type} [DecidableEq κ] {key : α → κ} {items : List α} {item : α} (k : κ)
    (hnew : key item ∉ items.map key) :
    (items ++ [item]).find? (fun x => key x = k) =
      if k = key item then some item else items.find? fun x => key x = k := by
  rw [List.find?_append]
  split
  · rename_i hk
    subst hk
    have hnone : items.find? (fun x => key x = key item) = none := by simpa using hnew
    rw [hnone]
    simp
  · rename_i hk
    simp [Ne.symm hk]

/-- Changes that keep the keys do not change which item is found. -/
theorem find?_key_map {α κ : Type} [DecidableEq κ] {key : α → κ} {f : α → α} (hf : ∀ x, key (f x) = key x)
    (items : List α) (k : κ) :
    (items.map f).find? (fun x => key x = k) = (items.find? fun x => key x = k).map f := by
  rw [List.find?_map]
  congr 1
  refine congrArg (List.find? · items) (funext fun x => ?_)
  rw [Function.comp_apply, hf]

end Collections

namespace SupplyChain

open Collections

variable {pg : BusinessPostgres} {t t' : PgBusinesses pg} {business : Business} {id email : String}
  {patch : BusinessProfilePatch} {now now' : Nat}

/-! ## The table -/

namespace PgBusinesses

theorem rowFor_eq_none : t.rowFor id = none ↔ id ∉ t.rows.map BusinessRow.id := by
  simp [rowFor]

theorem rowFor_eq_some {row : BusinessRow} : t.rowFor id = some row ↔ row ∈ t.rows ∧ row.id = id :=
  find?_key_iff t.rows_key

theorem rowForEmail_eq_some {row : BusinessRow} :
    t.rowForEmail email = some row ↔ row ∈ t.rows ∧ row.email = email :=
  find?_key_iff t.rows_email

theorem rowForEmail_eq_none : t.rowForEmail email = none ↔ email ∉ t.rows.map BusinessRow.email := by
  simp [rowForEmail]

/-- Which businesses are inserted. -/
theorem create_iff (huuid : pg.uuid business.id = some business.id) :
    (∃ t', t.create business = some t') ↔ (business.row business.id).fits pg = true ∧
      business.id ∉ t.rows.map BusinessRow.id ∧ business.email ∉ t.rows.map BusinessRow.email := by
  unfold create
  split
  · rename_i hnone
    cases huuid.symm.trans hnone
  · rename_i id hid
    obtain rfl := Option.some.inj (huuid.symm.trans hid)
    dsimp only
    split
    · rename_i hok
      exact iff_of_true ⟨_, rfl⟩ hok
    · rename_i hbad
      exact iff_of_false (fun ⟨_, h⟩ => Option.some_ne_none _ h.symm) hbad

theorem create_rows (huuid : pg.uuid business.id = some business.id) (h : t.create business = some t') :
    t'.rows = t.rows ++ [business.row business.id] := by
  unfold create at h
  split at h
  · cases h
  · rename_i id hid
    obtain rfl := Option.some.inj (huuid.symm.trans hid)
    dsimp only at h
    split at h
    · obtain rfl := Option.some.inj h
      rfl
    · cases h

theorem rowFor_updateRows (hpatch : patch.storable = true) (x : String) :
    (t.updateRows id patch now hpatch).rowFor x = (t.rowFor x).map fun row => row.update id patch now :=
  find?_key_map (fun row => row.update_id id patch now) t.rows x

theorem rowForEmail_updateRows (hpatch : patch.storable = true) (x : String) :
    (t.updateRows id patch now hpatch).rowForEmail x =
      (t.rowForEmail x).map fun row => row.update id patch now :=
  find?_key_map (fun row => row.update_email id patch now) t.rows x

theorem ids_updateRows (hpatch : patch.storable = true) :
    (t.updateRows id patch now hpatch).rows.map BusinessRow.id = t.rows.map BusinessRow.id := by
  rw [updateRows, List.map_map]
  exact List.map_congr_left fun row _ => row.update_id id patch now

theorem emails_updateRows (hpatch : patch.storable = true) :
    (t.updateRows id patch now hpatch).rows.map BusinessRow.email = t.rows.map BusinessRow.email := by
  rw [updateRows, List.map_map]
  exact List.map_congr_left fun row _ => row.update_email id patch now

theorem perform_update {u : String} {row : BusinessRow} (hpatch : patch.storable = true)
    (huuid : pg.uuid id = some u) (hrow : t.rowFor u = some row) :
    t.perform now (.update id patch) =
      (t.updateRows u patch now hpatch, some (some (row.coalesce patch now).toBusiness.object)) := by
  have hupdated : row.update u patch now = row.coalesce patch now := if_pos (rowFor_eq_some.mp hrow).2
  have hupdate : t.update id patch now =
      some (t.updateRows u patch now hpatch, (row.coalesce patch now).toBusiness) := by
    rw [update, huuid, Option.bind_some, dif_pos hpatch]
    dsimp only
    rw [rowFor_updateRows, hrow, Option.map_some, Option.map_some, hupdated]
  simp only [perform, hupdate]

theorem update_spec {result : PgBusinesses pg × Business} (h : t.update id patch now = some result) :
    ∃ u row, pg.uuid id = some u ∧ patch.storable = true ∧ t.rowFor u = some row := by
  obtain ⟨u, huuid, h⟩ := Option.bind_eq_some_iff.mp h
  split at h
  · rename_i hpatch
    dsimp only at h
    rw [rowFor_updateRows] at h
    obtain ⟨row', hrow', -⟩ := Option.map_eq_some_iff.mp h
    obtain ⟨row, hrow, -⟩ := Option.map_eq_some_iff.mp hrow'
    exact ⟨u, row, huuid, hpatch, hrow⟩
  · cases h

/-- A stored business is found under its own address. -/
theorem reachable {id : String} (h : t.getById id = some (some business)) :
    t.getByEmail business.email = some (some business) := by
  obtain ⟨u, -, hfound⟩ := Option.map_eq_some_iff.mp h
  obtain ⟨row, hrow, rfl⟩ := Option.map_eq_some_iff.mp hfound
  obtain ⟨hmem, -⟩ := rowFor_eq_some.mp hrow
  have hstorable : storable row.email = true := by
    have hfits := t.rows_fit row hmem
    simp only [BusinessRow.fits, List.all_cons, Bool.and_eq_true] at hfits
    exact hfits.1.1
  have hemail : t.rowForEmail row.email = some row := rowForEmail_eq_some.mpr ⟨hmem, rfl⟩
  show t.getByEmail row.email = _
  rw [getByEmail, if_pos hstorable, hemail]
  rfl

end PgBusinesses

/-! ## The two stores -/

/-- A patch has the same effect on an object as on its row, unless it has an `undefined` field. -/
theorem assign_coalesce {found : BusinessObject} {row : BusinessRow}
    (hsame : found.undated = row.toBusiness.object.undated) :
    (found.assign patch now).undated = (row.coalesce patch now').toBusiness.object.undated ↔ patch.Defined := by
  have hfield : ∀ {α : Type} (field : Option (Option α)) (value : α),
      field.getD (some value) = some (field.join.getD value) ↔ field ≠ some none := by
    intro α field value
    rcases field with _ | _ | value' <;> simp
  simp only [BusinessObject.undated, Business.object, BusinessRow.toBusiness, BusinessObject.mk.injEq] at hsame
  obtain ⟨hid, hemail, hpassword, hname, htype, hdescription, hcolor, -⟩ := hsame
  simp only [BusinessObject.assign, BusinessRow.coalesce, BusinessObject.undated, Business.object,
    BusinessRow.toBusiness, BusinessObject.mk.injEq, hid, hemail, hpassword, hname, htype, hdescription,
    hcolor, hfield, true_and, and_true, BusinessProfilePatch.Defined]

/-- The store in memory holds what the table holds, dates apart. -/
structure Mirrors (m : InMemoryBusinessStore) (t : PgBusinesses pg) (before : List Business) : Prop where
  ids : t.rows.map BusinessRow.id = before.map Business.id
  emails : t.rows.map BusinessRow.email = before.map Business.email
  byId : ∀ id, (m.byId.get id).map BusinessObject.undated =
    (t.rowFor id).map fun row => row.toBusiness.object.undated
  idByEmail : ∀ email, m.idByEmail.get email = (t.rowForEmail email).map BusinessRow.id

namespace Mirrors

variable {m : InMemoryBusinessStore} {before : List Business} {found : BusinessObject} {row : BusinessRow}

theorem empty : Mirrors .empty (.empty : PgBusinesses pg) [] where
  ids := rfl
  emails := rfl
  byId _ := rfl
  idByEmail _ := rfl

variable (h : Mirrors m t before)

include h

theorem get_eq_none : m.byId.get id = none ↔ id ∉ before.map Business.id := by
  rw [← h.ids, ← PgBusinesses.rowFor_eq_none, ← Option.map_eq_none_iff (f := BusinessObject.undated), h.byId,
    Option.map_eq_none_iff]

theorem get_rowFor (hfound : m.byId.get id = some found) :
    ∃ row, t.rowFor id = some row ∧ found.undated = row.toBusiness.object.undated := by
  have hboth := h.byId id
  rw [hfound, Option.map_some] at hboth
  obtain ⟨row, hrow, hsame⟩ := Option.map_eq_some_iff.mp hboth.symm
  exact ⟨row, hrow, hsame.symm⟩

theorem stored (hmem : id ∈ before.map Business.id) :
    ∃ found row, m.byId.get id = some found ∧ t.rowFor id = some row ∧ pg.uuid id = some id ∧
      found.undated = row.toBusiness.object.undated := by
  cases hfound : m.byId.get id with
  | none => exact absurd hmem (h.get_eq_none.mp hfound)
  | some found =>
    obtain ⟨row, hrow, hsame⟩ := h.get_rowFor hfound
    obtain ⟨hrow', rfl⟩ := PgBusinesses.rowFor_eq_some.mp hrow
    exact ⟨found, row, rfl, hrow, t.rows_uuid row hrow', hsame⟩

/-- In memory, too, a row is found under its own address. -/
theorem getByEmail_of_row (hrow : row ∈ t.rows) : m.getByEmail row.email = m.byId.get row.id := by
  have hemail : t.rowForEmail row.email = some row := PgBusinesses.rowForEmail_eq_some.mpr ⟨hrow, rfl⟩
  have hid : row.id ≠ "" := by
    intro hempty
    have huuid := t.rows_uuid row hrow
    rw [hempty, pg.uuid_empty] at huuid
    cases huuid
  rw [InMemoryBusinessStore.getByEmail, h.idByEmail, hemail]
  exact if_neg hid

theorem reachable (hfound : m.getById id = some found) : m.getByEmail found.email = some found := by
  obtain ⟨row, hrow, hsame⟩ := h.get_rowFor hfound
  obtain ⟨hmem, rfl⟩ := PgBusinesses.rowFor_eq_some.mp hrow
  have hemail : found.email = row.email := congrArg BusinessObject.email hsame
  rw [hemail, h.getByEmail_of_row hmem]
  exact hfound

/-! ## The operations -/

theorem create_alike (huuid : pg.uuid business.id = some business.id)
    (hnew : business.id ∉ before.map Business.id) :
    (m.perform now (.create business)).2.undated = (t.perform now' (.create business)).2.undated ↔
      BusinessOp.Fits pg before (.create business) := by
  have hiff := PgBusinesses.create_iff (t := t) huuid
  rw [h.ids, h.emails] at hiff
  cases hcreate : t.create business with
  | none =>
    have hbad : ¬ BusinessOp.Fits pg before (.create business) := by
      intro hfits
      obtain ⟨t', ht'⟩ := hiff.mpr ⟨hfits.1, hnew, hfits.2⟩
      rw [hcreate] at ht'
      cases ht'
    have hfails : (t.perform now' (.create business)).2 = none := by simp only [PgBusinesses.perform, hcreate]
    rw [hfails]
    exact iff_of_false (Option.some_ne_none _) hbad
  | some t' =>
    obtain ⟨hfits, -, hemail⟩ := hiff.mp ⟨t', hcreate⟩
    have hreturns : (t.perform now' (.create business)).2 = some none := by
      simp only [PgBusinesses.perform, hcreate]
    rw [hreturns]
    exact iff_of_true rfl ⟨hfits, hemail⟩

theorem create_mirrors (huuid : pg.uuid business.id = some business.id)
    (hnew : business.id ∉ before.map Business.id) (hfits : BusinessOp.Fits pg before (.create business)) :
    Mirrors (m.perform now (.create business)).1 (t.perform now' (.create business)).1
      (before ++ [business]) := by
  obtain ⟨t', hcreate⟩ := (PgBusinesses.create_iff (t := t) huuid).mpr
    ⟨hfits.1, by rwa [h.ids], by rw [h.emails]; exact hfits.2⟩
  have ht' : (t.perform now' (.create business)).1 = t' := by simp only [PgBusinesses.perform, hcreate]
  have hrows := PgBusinesses.create_rows huuid hcreate
  rw [ht']
  constructor
  · rw [hrows, List.map_append, List.map_append, h.ids]
    rfl
  · rw [hrows, List.map_append, List.map_append, h.emails]
    rfl
  · intro x
    have hrow : t'.rowFor x = if x = business.id then some (business.row business.id) else t.rowFor x := by
      rw [PgBusinesses.rowFor, hrows]
      exact find?_key_concat x (by rw [h.ids]; exact hnew)
    show ((m.byId.set business.id business.object).get x).map _ = _
    rw [InsertionMap.get_set, hrow]
    split
    · rfl
    · exact h.byId x
  · intro x
    have hrow : t'.rowForEmail x =
        if x = business.email then some (business.row business.id) else t.rowForEmail x := by
      rw [PgBusinesses.rowForEmail, hrows]
      exact find?_key_concat x (by rw [h.emails]; exact hfits.2)
    show (m.idByEmail.set business.email business.id).get x = _
    rw [InsertionMap.get_set, hrow]
    split
    · rfl
    · exact h.idByEmail x

theorem getById_alike :
    (m.perform now (.getById id)).2.undated = (t.perform now' (.getById id)).2.undated ↔
      BusinessOp.Fits pg before (.getById id) := by
  have hmemory : (m.perform now (.getById id)).2.undated =
      some ((t.rowFor id).map fun row => row.toBusiness.object.undated) := congrArg some (h.byId id)
  have htable : (t.perform now' (.getById id)).2.undated =
      (pg.uuid id).map fun u => (t.rowFor u).map fun row => row.toBusiness.object.undated := by
    simp [PgBusinesses.perform, PgBusinesses.getById, BusinessOutcome.undated, Function.comp_def]
  rw [hmemory, htable]
  cases huuid : pg.uuid id with
  | none => exact iff_of_false (Option.some_ne_none _) (by simp [BusinessOp.Fits, huuid])
  | some u =>
    have hfits : BusinessOp.Fits pg before (.getById id) ↔ (u ∈ before.map Business.id → u = id) := by
      simp [BusinessOp.Fits, huuid]
    rw [hfits, Option.map_some, Option.some_inj]
    by_cases hu : u = id
    · subst hu
      exact iff_of_true rfl fun _ => rfl
    · have hnone : t.rowFor id = none := by
        rw [PgBusinesses.rowFor_eq_none]
        intro hmem
        obtain ⟨row, hrow, rfl⟩ := List.mem_map.mp hmem
        exact hu (Option.some.inj (huuid.symm.trans (t.rows_uuid row hrow)))
      rw [hnone, Option.map_none, eq_comm, Option.map_eq_none_iff, PgBusinesses.rowFor_eq_none, h.ids]
      exact ⟨fun hnew hmem => absurd hmem hnew, fun himp hmem => hu (himp hmem)⟩

theorem getByEmail_alike :
    (m.perform now (.getByEmail email)).2.undated = (t.perform now' (.getByEmail email)).2.undated ↔
      BusinessOp.Fits pg before (.getByEmail email) := by
  have hmemory : (m.getByEmail email).map BusinessObject.undated =
      (t.rowForEmail email).map fun row => row.toBusiness.object.undated := by
    cases hfound : t.rowForEmail email with
    | none => rw [InMemoryBusinessStore.getByEmail, h.idByEmail, hfound]; rfl
    | some row =>
      obtain ⟨hmem, rfl⟩ := PgBusinesses.rowForEmail_eq_some.mp hfound
      rw [h.getByEmail_of_row hmem, h.byId, PgBusinesses.rowFor_eq_some.mpr ⟨hmem, rfl⟩]
  have hmemory' : (m.perform now (.getByEmail email)).2.undated =
      some ((t.rowForEmail email).map fun row => row.toBusiness.object.undated) := congrArg some hmemory
  rw [hmemory']
  by_cases hstorable : storable email = true
  · have htable : (t.perform now' (.getByEmail email)).2.undated =
        some ((t.rowForEmail email).map fun row => row.toBusiness.object.undated) := by
      simp [PgBusinesses.perform, PgBusinesses.getByEmail, hstorable, BusinessOutcome.undated,
        Function.comp_def]
    rw [htable]
    exact iff_of_true rfl hstorable
  · have htable : (t.perform now' (.getByEmail email)).2.undated = none := by
      simp [PgBusinesses.perform, PgBusinesses.getByEmail, hstorable, BusinessOutcome.undated]
    rw [htable]
    exact iff_of_false (Option.some_ne_none _) hstorable

theorem update_alike_of_mem (hmem : id ∈ before.map Business.id) :
    (m.perform now (.update id patch)).2.undated = (t.perform now' (.update id patch)).2.undated ↔
      patch.storable = true ∧ patch.Defined := by
  obtain ⟨found, row, hfound, hrow, huuid, hsame⟩ := h.stored hmem
  have hmemory : (m.perform now (.update id patch)).2 = some (some (found.assign patch now)) := by
    simp only [InMemoryBusinessStore.perform, InMemoryBusinessStore.update, hfound, Option.map_some]
  rw [hmemory]
  by_cases hpatch : patch.storable = true
  · rw [PgBusinesses.perform_update hpatch huuid hrow]
    rw [BusinessOutcome.undated, BusinessOutcome.undated, Option.map_some, Option.map_some, Option.map_some,
      Option.map_some, Option.some_inj, Option.some_inj, assign_coalesce hsame, and_iff_right hpatch]
  · have hfails : (t.perform now' (.update id patch)).2 = none := by
      simp [PgBusinesses.perform, PgBusinesses.update, huuid, hpatch]
    rw [hfails]
    exact iff_of_false (Option.some_ne_none _) fun hgood => hpatch hgood.1

/-- In memory an update of an unknown business throws. -/
theorem perform_update_of_not_mem (patch : BusinessProfilePatch) (now : Nat)
    (hmem : id ∉ before.map Business.id) :
    m.perform now (.update id patch) = (m, none) := by
  have hnone := h.get_eq_none.mpr hmem
  simp only [InMemoryBusinessStore.perform, InMemoryBusinessStore.update, hnone, Option.map_none]

theorem update_alike_of_not_mem (now now' : Nat) (hmem : id ∉ before.map Business.id) :
    (m.perform now (.update id patch)).2.undated = (t.perform now' (.update id patch)).2.undated ↔
      (patch.storable = true → ∀ u ∈ before.map Business.id, pg.uuid id ≠ some u) := by
  rw [h.perform_update_of_not_mem patch now hmem]
  by_cases hdenotes : patch.storable = true ∧ ∃ u ∈ before.map Business.id, pg.uuid id = some u
  · obtain ⟨hpatch, u, hu, huuid⟩ := hdenotes
    rw [← h.ids] at hu
    obtain ⟨row, hrow, rfl⟩ := List.mem_map.mp hu
    rw [PgBusinesses.perform_update hpatch huuid (PgBusinesses.rowFor_eq_some.mpr ⟨hrow, rfl⟩)]
    refine iff_of_false (Option.some_ne_none _).symm fun hall => ?_
    exact hall hpatch row.id (h.ids ▸ hu) huuid
  · have hall : patch.storable = true → ∀ u ∈ before.map Business.id, pg.uuid id ≠ some u :=
      fun hpatch u hu huuid => hdenotes ⟨hpatch, u, hu, huuid⟩
    have hfails : (t.perform now' (.update id patch)).2 = none := by
      cases hupdate : t.update id patch now' with
      | none => simp only [PgBusinesses.perform, hupdate]
      | some result =>
        obtain ⟨u, row, huuid, hpatch, hrow⟩ := PgBusinesses.update_spec hupdate
        have hu : u ∈ before.map Business.id := by
          rw [← h.ids]
          obtain ⟨hmem', rfl⟩ := PgBusinesses.rowFor_eq_some.mp hrow
          exact List.mem_map_of_mem hmem'
        exact absurd huuid (hall hpatch u hu)
    rw [hfails]
    exact iff_of_true rfl hall

theorem update_mirrors (hfits : BusinessOp.Fits pg before (.update id patch)) :
    Mirrors (m.perform now (.update id patch)).1 (t.perform now' (.update id patch)).1 before := by
  by_cases hmem : id ∈ before.map Business.id
  · have hgood : patch.storable = true ∧ patch.Defined := by
      simpa only [BusinessOp.Fits, if_pos hmem] using hfits
    obtain ⟨found, row, hfound, hrow, huuid, hsame⟩ := h.stored hmem
    have hmemory : (m.perform now (.update id patch)).1 =
        { m with byId := m.byId.set id (found.assign patch now) } := by
      simp only [InMemoryBusinessStore.perform, InMemoryBusinessStore.update, hfound, Option.map_some]
    rw [hmemory, PgBusinesses.perform_update hgood.1 huuid hrow]
    constructor
    · rw [← h.ids]
      exact PgBusinesses.ids_updateRows hgood.1
    · rw [← h.emails]
      exact PgBusinesses.emails_updateRows hgood.1
    · intro x
      show ((m.byId.set id (found.assign patch now)).get x).map _ = _
      rw [InsertionMap.get_set, PgBusinesses.rowFor_updateRows, Option.map_map]
      split
      · rename_i hx
        subst hx
        rw [hrow, Option.map_some, Option.map_some, (assign_coalesce hsame).mpr hgood.2, Function.comp_apply,
          BusinessRow.update, if_pos (PgBusinesses.rowFor_eq_some.mp hrow).2]
      · rename_i hx
        rw [h.byId]
        refine Option.map_congr fun row' hrow' => ?_
        rw [Function.comp_apply, BusinessRow.update, if_neg]
        exact fun heq => hx ((PgBusinesses.rowFor_eq_some.mp hrow').2.symm.trans heq)
    · intro x
      rw [PgBusinesses.rowForEmail_updateRows, Option.map_map]
      refine (h.idByEmail x).trans (Option.map_congr fun row' _ => ?_)
      rw [Function.comp_apply, BusinessRow.update_id]
  · have hsame := (h.update_alike_of_not_mem now now' hmem).mpr
      (by simpa only [BusinessOp.Fits, if_neg hmem] using hfits)
    have hmemory := h.perform_update_of_not_mem patch now hmem
    have htable : (t.perform now' (.update id patch)).1 = t := by
      cases hupdate : t.update id patch now' with
      | none => simp only [PgBusinesses.perform, hupdate]
      | some result =>
        simp only [hmemory, PgBusinesses.perform, hupdate] at hsame
        cases hsame
    rw [hmemory, htable]
    exact h

/-- An operation comes to the same in both stores if and only if it fits; then the stores stay alike. -/
theorem step (now now' : Nat) {op : BusinessOp} (hnew : ∀ business, op = .create business →
    pg.uuid business.id = some business.id ∧ business.id ∉ before.map Business.id) :
    ((m.perform now op).2.undated = (t.perform now' op).2.undated ↔ op.Fits pg before) ∧
      (op.Fits pg before →
        Mirrors (m.perform now op).1 (t.perform now' op).1 (before ++ BusinessOp.created [op])) := by
  cases op with
  | create business =>
    obtain ⟨huuid, hnew⟩ := hnew business rfl
    exact ⟨h.create_alike huuid hnew, h.create_mirrors huuid hnew⟩
  | getById id => exact ⟨h.getById_alike, fun _ => (List.append_nil before).symm ▸ h⟩
  | getByEmail email => exact ⟨h.getByEmail_alike, fun _ => (List.append_nil before).symm ▸ h⟩
  | update id patch =>
    refine ⟨?_, fun hfits => (List.append_nil before).symm ▸ h.update_mirrors hfits⟩
    rw [BusinessOp.Fits]
    split
    · rename_i hmem
      exact h.update_alike_of_mem hmem
    · rename_i hmem
      exact h.update_alike_of_not_mem now now' hmem

end Mirrors

/-! ## Runs -/

namespace BusinessOp

variable {ops ops' : List BusinessOp}

theorem created_append (ops ops' : List BusinessOp) : created (ops ++ ops') = created ops ++ created ops' := by
  induction ops with
  | nil => rfl
  | cons op ops ih => cases op <;> simp [created, ih]

/-- The rest of a run, after the businesses `before`. -/
def RestFits (pg : BusinessPostgres) (before : List Business) (ops : List BusinessOp) : Prop :=
  ∀ early op late, ops = early ++ op :: late → op.Fits pg (before ++ created early)

theorem allFit_iff : AllFit pg ops ↔ RestFits pg [] ops := by simp only [AllFit, RestFits, List.nil_append]

theorem restFits_nil {before : List Business} : RestFits pg before [] := by
  intro early op late heq
  cases early <;> cases heq

theorem restFits_cons {before : List Business} {op : BusinessOp} :
    RestFits pg before (op :: ops) ↔ op.Fits pg before ∧ RestFits pg (before ++ created [op]) ops := by
  constructor
  · intro h
    refine ⟨by simpa [created] using h [] op ops rfl, fun early op' late heq => ?_⟩
    have hlater := h (op :: early) op' late (by rw [heq, List.cons_append])
    rwa [← List.singleton_append, created_append, ← List.append_assoc] at hlater
  · rintro ⟨hop, hrest⟩ early op' late heq
    cases early with
    | nil =>
      obtain ⟨rfl, -⟩ := List.cons.inj heq
      simpa [created] using hop
    | cons op₁ early =>
      obtain ⟨rfl, htail⟩ := List.cons.inj heq
      rw [← List.singleton_append, created_append, ← List.append_assoc]
      exact hrest early op' late htail

/-- The ids that are still to be created are new UUIDs. -/
structure NewIds (pg : BusinessPostgres) (before : List Business) (ops : List BusinessOp) : Prop where
  nodup : ((before ++ created ops).map Business.id).Nodup
  uuid : ∀ business ∈ created ops, pg.uuid business.id = some business.id

theorem NewIds.head {before : List Business} {op : BusinessOp} (h : NewIds pg before (op :: ops)) :
    ∀ business, op = .create business →
      pg.uuid business.id = some business.id ∧ business.id ∉ before.map Business.id := by
  rintro business rfl
  refine ⟨h.uuid business List.mem_cons_self, fun hmem => ?_⟩
  have hnodup := h.nodup
  rw [List.map_append, List.nodup_append] at hnodup
  exact hnodup.2.2 _ hmem _ (List.mem_map_of_mem List.mem_cons_self) rfl

theorem NewIds.tail {before : List Business} {op : BusinessOp} (h : NewIds pg before (op :: ops)) :
    NewIds pg (before ++ created [op]) ops := by
  have hcreated : created (op :: ops) = created [op] ++ created ops := created_append [op] ops
  refine ⟨?_, fun business hmem => h.uuid business ?_⟩
  · rw [List.append_assoc, ← hcreated]
    exact h.nodup
  · rw [hcreated]
    exact List.mem_append_right _ hmem

variable {m : InMemoryBusinessStore} {before : List Business} (now now' : Nat → Nat)

/-- What two alike stores come to. -/
theorem run_alike (h : Mirrors m t before) (hnew : NewIds pg before ops) (n : Nat) :
    (run InMemoryBusinessStore.perform now n m ops).2.map BusinessOutcome.undated =
        (run PgBusinesses.perform now' n t ops).2.map BusinessOutcome.undated ↔ RestFits pg before ops := by
  induction ops generalizing m t before n with
  | nil =>
    exact iff_of_true rfl restFits_nil
  | cons op ops ih =>
    obtain ⟨hiff, hnext⟩ := h.step (now n) (now' n) hnew.head
    rw [run, run, List.map_cons, List.map_cons, List.cons.injEq, hiff, restFits_cons]
    exact and_congr_right fun hfits => ih (hnext hfits) hnew.tail (n + 1)

theorem run_mirrors (h : Mirrors m t before) (hnew : NewIds pg before ops) (hfit : RestFits pg before ops)
    (n : Nat) : ∃ before', Mirrors (run InMemoryBusinessStore.perform now n m ops).1
      (run PgBusinesses.perform now' n t ops).1 before' := by
  induction ops generalizing m t before n with
  | nil => exact ⟨before, h⟩
  | cons op ops ih =>
    obtain ⟨hop, hrest⟩ := restFits_cons.mp hfit
    exact ih ((h.step _ _ hnew.head).2 hop) hnew.tail hrest (n + 1)

theorem restFits_take (h : RestFits pg before ops) (n : Nat) : RestFits pg before (ops.take n) := by
  intro early op late heq
  refine h early op (late ++ ops.drop n) ?_
  rw [← List.cons_append, ← List.append_assoc, ← heq, List.take_append_drop]

theorem newIds_take (h : NewIds pg before ops) (n : Nat) : NewIds pg before (ops.take n) := by
  have hcreated : created ops = created (ops.take n) ++ created (ops.drop n) := by
    rw [← created_append, List.take_append_drop]
  constructor
  · have hnodup := h.nodup
    rw [hcreated, ← List.append_assoc, List.map_append] at hnodup
    exact (List.nodup_append.mp hnodup).1
  · intro business hmem
    exact h.uuid business (hcreated ▸ List.mem_append_left _ hmem)

/-- The two stores are alike if and only if each operation fits what was created before it. -/
theorem alike_iff (hfresh : Fresh pg ops) : Alike pg now now' ops ↔ AllFit pg ops := by
  have hnew : NewIds pg [] ops := ⟨hfresh.nodup, hfresh.uuid⟩
  rw [allFit_iff, ← run_alike now now' Mirrors.empty hnew 0]
  constructor
  · exact fun h => h.outcomes
  · intro hsame
    have hfit := (run_alike now now' Mirrors.empty hnew 0).mp hsame
    refine ⟨hsame, fun n id business hfound => ?_, fun n id business hfound => ?_⟩
    · obtain ⟨before', hmirrors⟩ :=
        run_mirrors now now' (@Mirrors.empty pg) (newIds_take hnew n) (restFits_take hfit n) 0
      exact hmirrors.reachable hfound
    · exact PgBusinesses.reachable hfound

/-- A business with an id and an address. -/
def shop (id email : String) : Business :=
  { id, email, passwordHash := "salt:hash", businessName := "Shop", businessType := .b2c, description := "",
    accentColor := "#9fd3ff", createdAt := 1, updatedAt := 1 }

/-- Two businesses are created, one is renamed and found by its address, and an update finds nobody. -/
def shopOps : List BusinessOp :=
  [.create (shop "00000000-0000-4000-8000-00000000000a" "a@example.com"),
    .create (shop "00000000-0000-4000-8000-00000000000b" "b@example.com"),
    .update "00000000-0000-4000-8000-00000000000a" { businessName := some (some "Shops") },
    .update "nope" { description := some (some "?") }, .getByEmail "a@example.com"]

theorem shopOps_alike : Alike .plain (fun n => n) (fun n => 2 * n) shopOps := by
  have hfresh : Fresh .plain shopOps := ⟨by decide +kernel, by decide +kernel⟩
  refine (alike_iff _ _ hfresh).mpr ?_
  have hrenames : BusinessProfilePatch.Defined { businessName := some (some "Shops") } := by
    simp [BusinessProfilePatch.Defined]
  rw [allFit_iff, shopOps]
  simp only [restFits_cons]
  refine ⟨?_, ?_, ?_, ?_, ?_, restFits_nil⟩
  · exact ⟨by decide +kernel, by decide +kernel⟩
  · exact ⟨by decide +kernel, by decide +kernel⟩
  · rw [Fits, if_pos (by decide +kernel)]
    exact ⟨by decide +kernel, hrenames⟩
  · rw [Fits, if_neg (by decide +kernel)]
    have hnone : BusinessPostgres.plain.uuid "nope" = none := by decide +kernel
    simp [hnone]
  · show storable "a@example.com" = true
    decide +kernel

/-- Two overlapping registrations of one address. -/
def rivalOps : List BusinessOp :=
  [.getByEmail "a@example.com", .getByEmail "a@example.com",
    .create (shop "00000000-0000-4000-8000-00000000000a" "a@example.com"),
    .create (shop "00000000-0000-4000-8000-00000000000b" "a@example.com")]

/-- In memory both succeed, and the first is not found under its address any more. -/
theorem rivalOps_not_alike : Fresh .plain rivalOps ∧
    (memory (fun n => n) rivalOps).1.getByEmail "a@example.com" =
      some (shop "00000000-0000-4000-8000-00000000000b" "a@example.com").object ∧
    ¬ Alike .plain (fun n => n) (fun n => n) rivalOps := by
  refine ⟨⟨by decide +kernel, by decide +kernel⟩, by decide +kernel, fun halike => ?_⟩
  have houtcomes := halike.outcomes
  revert houtcomes
  decide +kernel

end BusinessOp

end SupplyChain
