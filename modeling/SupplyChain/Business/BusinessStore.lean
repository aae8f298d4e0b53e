import SupplyChain.Collections.InsertionMap

/-!
# Businesses and `InMemoryBusinessStore`
-/

namespace SupplyChain

open Collections

/-- `BusinessType` -/
inductive BusinessType where
  | b2c
  | b2b2b
  | b2b
  | other
  deriving DecidableEq

/-- `Business` -/
structure Business where
  id : String
  email : String
  passwordHash : String
  businessName : String
  businessType : BusinessType
  description : String
  accentColor : String
  createdAt : Nat
  updatedAt : Nat
  deriving DecidableEq

/-- A patch may lack a field, which is `none`, and may have it `undefined`, which is `some none`. -/
structure BusinessProfilePatch where
  businessName : Option (Option String) := none
  businessType : Option (Option BusinessType) := none
  description : Option (Option String) := none
  accentColor : Option (Option String) := none

/-- The object of a business. A field of its profile is `undefined` after a patch that has it so. -/
structure BusinessObject where
  id : String
  email : String
  passwordHash : String
  businessName : Option String
  businessType : Option BusinessType
  description : Option String
  accentColor : Option String
  createdAt : Nat
  updatedAt : Nat
  deriving DecidableEq

/-- The business as an object of JavaScript, with all its fields. -/
def Business.object (business : Business) : BusinessObject where
  id := business.id
  email := business.email
  passwordHash := business.passwordHash
  businessName := some business.businessName
  businessType := some business.businessType
  description := some business.description
  accentColor := some business.accentColor
  createdAt := business.createdAt
  updatedAt := business.updatedAt

/-- `Object.assign(business, patch, { updatedAt: Date.now() })`. -/
def BusinessObject.assign (business : BusinessObject) (patch : BusinessProfilePatch) (now : Nat) :
    BusinessObject :=
  { business with
    businessName := patch.businessName.getD business.businessName
    businessType := patch.businessType.getD business.businessType
    description := patch.description.getD business.description
    accentColor := patch.accentColor.getD business.accentColor
    updatedAt := now }

/-- `InMemoryBusinessStore` -/
structure InMemoryBusinessStore where
  /-- The businesses, by their ids. -/
  byId : InsertionMap String BusinessObject
  /-- The ids, by the addresses. -/
  idByEmail : InsertionMap String String

namespace InMemoryBusinessStore

/-- A store without businesses. -/
def empty : InMemoryBusinessStore := ⟨.empty, .empty⟩

/-- `create`: an address that is there goes to the new business. -/
def create (store : InMemoryBusinessStore) (business : Business) : InMemoryBusinessStore :=
  ⟨store.byId.set business.id business.object, store.idByEmail.set business.email business.id⟩

/-- `getById` -/
def getById (store : InMemoryBusinessStore) (id : String) : Option BusinessObject := store.byId.get id

/-- `getByEmail` -/
def getByEmail (store : InMemoryBusinessStore) (email : String) : Option BusinessObject :=
  match store.idByEmail.get email with
  | some id => if id = "" then none else store.byId.get id
  | none => none

/-- `none` is the error for an unknown business. -/
def update (store : InMemoryBusinessStore) (id : String) (patch : BusinessProfilePatch) (now : Nat) :
    Option (InMemoryBusinessStore × BusinessObject) :=
  (store.byId.get id).map fun business =>
    let business := business.assign patch now
    ({ store with byId := store.byId.set id business }, business)

end InMemoryBusinessStore

end SupplyChain
