import SupplyChain.Business.PgBusinessStore

/-!
# The two business stores side by side

The same operations over each of the two stores, one after the other. Dates are of no account.
-/

namespace SupplyChain

/-- No field of the patch is `undefined`. -/
def BusinessProfilePatch.Defined (patch : BusinessProfilePatch) : Prop :=
  patch.businessName ≠ some none ∧ patch.businessType ≠ some none ∧ patch.description ≠ some none ∧
    patch.accentColor ≠ some none

/-- The methods of `BusinessStore`. -/
inductive BusinessOp where
  /-- `create` -/
  | create (business : Business)
  /-- `getById` -/
  | getById (id : String)
  /-- `getByEmail` -/
  | getByEmail (email : String)
  /-- `update` -/
  | update (id : String) (patch : BusinessProfilePatch)

/-- What a call comes to: it throws, or it returns a business or `undefined`. -/
abbrev BusinessOutcome := Option (Option BusinessObject)

/-- The business, but for its dates. -/
def BusinessObject.undated (business : BusinessObject) : BusinessObject :=
  { business with createdAt := 0, updatedAt := 0 }

/-- What a call comes to, but for the dates. -/
def BusinessOutcome.undated (outcome : BusinessOutcome) : BusinessOutcome :=
  outcome.map fun found => found.map BusinessObject.undated

/-- A call on the store in memory, at the time `now`. -/
def InMemoryBusinessStore.perform (store : InMemoryBusinessStore) (now : Nat) :
    BusinessOp → InMemoryBusinessStore × BusinessOutcome
  | .create business => (store.create business, some none)
  | .getById id => (store, some (store.getById id))
  | .getByEmail email => (store, some (store.getByEmail email))
  | .update id patch =>
    match store.update id patch now with
    | some (store, business) => (store, some (some business))
    | none => (store, none)

/-- A call on the table, when `now()` of Postgres is `now`. -/
def PgBusinesses.perform {pg : BusinessPostgres} (t : PgBusinesses pg) (now : Nat) :
    BusinessOp → PgBusinesses pg × BusinessOutcome
  | .create business =>
    match t.create business with
    | some t => (t, some none)
    | none => (t, none)
  | .getById id => (t, (t.getById id).map fun found => found.map Business.object)
  | .getByEmail email => (t, (t.getByEmail email).map fun found => found.map Business.object)
  | .update id patch =>
    match t.update id patch now with
    | some (t, business) => (t, some (some business.object))
    | none => (t, none)

namespace BusinessOp

/-- A store after some operations, and what they came to. The `n`-th of all finds the clock at `now n`. -/
def run {σ : Type} (perform : σ → Nat → BusinessOp → σ × BusinessOutcome) (now : Nat → Nat) :
    Nat → σ → List BusinessOp → σ × List BusinessOutcome
  | _, s, [] => (s, [])
  | n, s, op :: ops =>
    let first := perform s (now n) op
    let rest := run perform now (n + 1) first.1 ops
    (rest.1, first.2 :: rest.2)

/-- The store in memory after some operations, and what they came to. -/
def memory (now : Nat → Nat) (ops : List BusinessOp) : InMemoryBusinessStore × List BusinessOutcome :=
  run InMemoryBusinessStore.perform now 0 .empty ops

/-- The table after some operations, and what they came to. -/
def table (pg : BusinessPostgres) (now : Nat → Nat) (ops : List BusinessOp) :
    PgBusinesses pg × List BusinessOutcome :=
  run PgBusinesses.perform now 0 .empty ops

/-- The businesses that are created, in turn. -/
def created : List BusinessOp → List Business
  | [] => []
  | create business :: ops => business :: created ops
  | _ :: ops => created ops

/-- Each business is created with a new UUID, written as Postgres writes it. -/
structure Fresh (pg : BusinessPostgres) (ops : List BusinessOp) : Prop where
  /-- No two businesses have one id. -/
  nodup : ((created ops).map Business.id).Nodup
  /-- The ids are UUIDs as Postgres writes them. -/
  uuid : ∀ business ∈ created ops, pg.uuid business.id = some business.id

/-- The two stores come to the same, call by call, and with both of them each stored business is found under
its own address, after any number of the calls. -/
structure Alike (pg : BusinessPostgres) (now now' : Nat → Nat) (ops : List BusinessOp) : Prop where
  /-- What the calls come to. -/
  outcomes :
    (memory now ops).2.map BusinessOutcome.undated = (table pg now' ops).2.map BusinessOutcome.undated
  /-- In memory each business is found by its address. -/
  memory_reachable : ∀ n id business, (memory now (ops.take n)).1.getById id = some business →
    (memory now (ops.take n)).1.getByEmail business.email = some business
  /-- So it is in the table. -/
  table_reachable : ∀ n id business, (table pg now' (ops.take n)).1.getById id = some (some business) →
    (table pg now' (ops.take n)).1.getByEmail business.email = some (some business)

/-- With the businesses created so far, an operation that both stores take alike: an address is new, its index
row fits, all strings can be stored, an id is a UUID, written as Postgres writes it if it is one of theirs, and
no field of a patch is `undefined`. An update of an unknown business fails in memory, so it has to fail in
Postgres. -/
def Fits (pg : BusinessPostgres) (before : List Business) : BusinessOp → Prop
  | create business =>
    (business.row business.id).fits pg = true ∧ business.email ∉ before.map Business.email
  | getById id => ∃ u, pg.uuid id = some u ∧ (u ∈ before.map Business.id → u = id)
  | getByEmail email => storable email = true
  | update id patch =>
    if id ∈ before.map Business.id then patch.storable = true ∧ patch.Defined
    else patch.storable = true → ∀ u ∈ before.map Business.id, pg.uuid id ≠ some u

/-- Each operation is one that both stores take alike when it comes. -/
def AllFit (pg : BusinessPostgres) (ops : List BusinessOp) : Prop :=
  ∀ before op after, ops = before ++ op :: after → op.Fits pg (created before)

end BusinessOp

end SupplyChain
