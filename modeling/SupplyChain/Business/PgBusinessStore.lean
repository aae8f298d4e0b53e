import SupplyChain.Business.BusinessStore
import SupplyChain.Orders.PgOrderStore
import Mathlib.Data.List.ReduceOption

/-!
# `PgBusinessStore`

The table `businesses` of `schema.sql` with its constraints, and the statements of `pgBusinessStore.ts`. A
statement that Postgres rejects throws, and leaves the table as it was.
-/

namespace SupplyChain

/-- A Postgres that also has the table of businesses. -/
structure BusinessPostgres extends Postgres where
  /-- Whether an address fits on a page of the index of addresses. -/
  emailFits : String → Bool
  /-- The empty text denotes no UUID. -/
  uuid_empty : uuid "" = none

/-- `Postgres.plain`, with an index that takes every address. -/
def BusinessPostgres.plain : BusinessPostgres where
  toPostgres := .plain
  emailFits _ := true
  uuid_empty := by decide

/-- A row of `businesses`. -/
structure BusinessRow where
  id : String
  email : String
  password_hash : String
  business_name : String
  business_type : BusinessType
  description : String
  accent_color : String
  created_at : Nat
  updated_at : Nat

/-- The constraints of a row on its own. -/
def BusinessRow.fits (pg : BusinessPostgres) (row : BusinessRow) : Bool :=
  [row.email, row.password_hash, row.business_name, row.description, row.accent_color].all storable &&
    pg.emailFits row.email

/-- The row of a business, under an id as Postgres writes it. -/
def Business.row (id : String) (business : Business) : BusinessRow where
  id
  email := business.email
  password_hash := business.passwordHash
  business_name := business.businessName
  business_type := business.businessType
  description := business.description
  accent_color := business.accentColor
  created_at := business.createdAt
  updated_at := business.updatedAt

/-- `toBusiness` -/
def BusinessRow.toBusiness (row : BusinessRow) : Business where
  id := row.id
  email := row.email
  passwordHash := row.password_hash
  businessName := row.business_name
  businessType := row.business_type
  description := row.description
  accentColor := row.accent_color
  createdAt := row.created_at
  updatedAt := row.updated_at

/-- What is not `?? null` of a patch can be stored. -/
def BusinessProfilePatch.storable (patch : BusinessProfilePatch) : Bool :=
  [patch.businessName.join, patch.description.join, patch.accentColor.join].reduceOption.all
    SupplyChain.storable

/-- `SET`, with `COALESCE` of what is not `?? null` of the patch. -/
def BusinessRow.coalesce (patch : BusinessProfilePatch) (now : Nat) (row : BusinessRow) : BusinessRow :=
  { row with
    business_name := patch.businessName.join.getD row.business_name
    business_type := patch.businessType.join.getD row.business_type
    description := patch.description.join.getD row.description
    accent_color := patch.accentColor.join.getD row.accent_color
    updated_at := now }

/-- A row after `UPDATE businesses`. -/
def BusinessRow.update (id : String) (patch : BusinessProfilePatch) (now : Nat) (row : BusinessRow) :
    BusinessRow :=
  if row.id = id then row.coalesce patch now else row

theorem BusinessRow.update_id (id : String) (patch : BusinessProfilePatch) (now : Nat) (row : BusinessRow) :
    (row.update id patch now).id = row.id := by
  unfold update
  split <;> rfl

theorem BusinessRow.update_email (id : String) (patch : BusinessProfilePatch) (now : Nat)
    (row : BusinessRow) : (row.update id patch now).email = row.email := by
  unfold update
  split <;> rfl

theorem storable_getD {value : Option String} {column : String} (hvalue : ∀ s ∈ value, storable s = true)
    (hcolumn : storable column = true) : storable (value.getD column) = true := by
  cases value with
  | none => exact hcolumn
  | some s => exact hvalue s rfl

theorem BusinessRow.fits_update {pg : BusinessPostgres} {id : String} {patch : BusinessProfilePatch}
    {now : Nat} {row : BusinessRow} (hpatch : patch.storable = true) (hrow : row.fits pg = true) :
    (row.update id patch now).fits pg = true := by
  unfold update
  split
  · simp only [BusinessProfilePatch.storable, List.all_eq_true, List.reduceOption_mem_iff, List.mem_cons,
      List.not_mem_nil, or_false] at hpatch
    simp only [fits, coalesce, List.all_cons, List.all_nil, Bool.and_eq_true, and_true] at hrow ⊢
    obtain ⟨⟨hemail, hpassword, hname, hdescription, hcolor⟩, hindex⟩ := hrow
    refine ⟨⟨hemail, hpassword, ?_, ?_, ?_⟩, hindex⟩
    · exact storable_getD (fun s hs => hpatch s (.inl hs.symm)) hname
    · exact storable_getD (fun s hs => hpatch s (.inr (.inl hs.symm))) hdescription
    · exact storable_getD (fun s hs => hpatch s (.inr (.inr hs.symm))) hcolor
  · exact hrow

/-- The table of businesses. -/
structure PgBusinesses (pg : BusinessPostgres) where
  /-- Its rows, in the order in which they were inserted. -/
  rows : List BusinessRow
  /-- Ids are UUIDs as Postgres writes them. -/
  rows_uuid : ∀ row ∈ rows, pg.uuid row.id = some row.id
  /-- `PRIMARY KEY` -/
  rows_key : (rows.map BusinessRow.id).Nodup
  /-- `UNIQUE (email)` -/
  rows_email : (rows.map BusinessRow.email).Nodup
  /-- Every row fits. -/
  rows_fit : ∀ row ∈ rows, row.fits pg = true

namespace PgBusinesses

variable {pg : BusinessPostgres}

/-- The table without rows. -/
def empty : PgBusinesses pg where
  rows := []
  rows_uuid := List.forall_mem_nil _
  rows_key := List.nodup_nil
  rows_email := List.nodup_nil
  rows_fit := List.forall_mem_nil _

/-- `INSERT INTO businesses`. -/
def create (t : PgBusinesses pg) (business : Business) : Option (PgBusinesses pg) :=
  match hid : pg.uuid business.id with
  | none => none
  | some id =>
    let row := business.row id
    if h : row.fits pg ∧ row.id ∉ t.rows.map BusinessRow.id ∧ row.email ∉ t.rows.map BusinessRow.email then
      some
        { rows := t.rows ++ [row]
          rows_uuid := by
            intro r hr
            rcases List.mem_append.mp hr with hold | hnew
            · exact t.rows_uuid r hold
            · rw [List.mem_singleton.mp hnew]
              exact pg.uuid_uuid hid
          rows_key := by simpa using t.rows_key.concat h.2.1
          rows_email := by simpa using t.rows_email.concat h.2.2
          rows_fit := by
            intro r hr
            rcases List.mem_append.mp hr with hold | hnew
            · exact t.rows_fit r hold
            · rw [List.mem_singleton.mp hnew]
              exact h.1 }
    else none

/-- The row of an id, as `WHERE id = $1` finds it. -/
def rowFor (t : PgBusinesses pg) (id : String) : Option BusinessRow := t.rows.find? fun row => row.id = id

/-- The row of an address. -/
def rowForEmail (t : PgBusinesses pg) (email : String) : Option BusinessRow :=
  t.rows.find? fun row => row.email = email

/-- A text that does not denote a UUID is an error. -/
def getById (t : PgBusinesses pg) (id : String) : Option (Option Business) :=
  (pg.uuid id).map fun id => (t.rowFor id).map BusinessRow.toBusiness

/-- A text that cannot be stored is an error. -/
def getByEmail (t : PgBusinesses pg) (email : String) : Option (Option Business) :=
  if storable email then some ((t.rowForEmail email).map BusinessRow.toBusiness) else none

/-- The rows after `UPDATE businesses`. -/
def updateRows (t : PgBusinesses pg) (id : String) (patch : BusinessProfilePatch) (now : Nat)
    (hpatch : patch.storable = true) : PgBusinesses pg where
  rows := t.rows.map fun row => row.update id patch now
  rows_uuid := by
    intro r hr
    obtain ⟨row, hrow, rfl⟩ := List.mem_map.mp hr
    rw [BusinessRow.update_id]
    exact t.rows_uuid row hrow
  rows_key := by
    rw [List.map_map, List.map_congr_left fun row _ => row.update_id id patch now]
    exact t.rows_key
  rows_email := by
    rw [List.map_map, List.map_congr_left fun row _ => row.update_email id patch now]
    exact t.rows_email
  rows_fit := by
    intro r hr
    obtain ⟨row, hrow, rfl⟩ := List.mem_map.mp hr
    exact BusinessRow.fits_update hpatch (t.rows_fit row hrow)

/-- `update`; `none` is that it throws, or that Postgres rejects it. -/
def update (t : PgBusinesses pg) (id : String) (patch : BusinessProfilePatch) (now : Nat) :
    Option (PgBusinesses pg × Business) :=
  (pg.uuid id).bind fun id =>
    if hpatch : patch.storable then
      let t := t.updateRows id patch now hpatch
      (t.rowFor id).map fun row => (t, row.toBusiness) -- Unknown business, if there is no row
    else none

end PgBusinesses

end SupplyChain
