import Doenerstag.Db.Delete
import Doenerstag.Db.MenuCopy
import Doenerstag.Db.OpeningHours
import Doenerstag.Db.Restaurants
import Doenerstag.Lib.Loops

/-!
# Importing a restaurant (`internal/transfer`)

A document has a restaurant with its menu, which travels by ids; reference data travels by codes. `Import`
writes it in one transaction, which is here what it makes of the tables that it sees: they are committed
when it ends with a value, and nothing is when it ends with an error.
-/

namespace Doenerstag

namespace Transfer

open Loops

/-! ## The document -/

structure Contact where
  type : String
  value : String
  label : String
  sortOrder : Int
  deriving DecidableEq, Repr

/-- `OpeningHours` -/
structure Hours where
  day : Int
  start : String
  stop : String
  deriving DecidableEq, Repr

structure Category where
  id : String
  name : String
  sortOrder : Int
  deriving DecidableEq, Repr

structure Modification where
  name : String
  priceDeltaCents : Int64
  sortOrder : Int
  deriving DecidableEq, Repr

structure Item where
  id : String
  category : String
  externalID : String
  name : String
  description : String
  priceCents : Int64
  available : Bool
  tags : List String
  allergens : List String
  additives : List String
  modifications : List Modification
  deriving DecidableEq, Repr

structure Restaurant where
  id : String
  name : String
  currency : String
  minOrderValueCents : Option Int64
  deliveryFeeCents : Option Int64
  contacts : List Contact
  openingHours : List Hours
  categories : List Category
  items : List Item
  deriving DecidableEq, Repr

/-- The codes of an item in one of the join tables -/
def Item.codes (item : Item) : Classification → List String
  | .tag => item.tags
  | .allergen => item.allergens
  | .additive => item.additives

/-- What an installation does not have. -/
inductive Problem where
  | currency (code : String)
  | contactType (code : String)
  | classified (c : Classification) (code : String)
  deriving DecidableEq, Repr

/-- What is being written. -/
inductive Part where
  | restaurant
  | contact
  | openingHours
  | category (name : String)
  | item (name : String)
  | modification (item : String)
  | link (item : String) (c : Classification) (code : String)
  deriving DecidableEq, Repr

inductive ImportError where
  | restaurantID (id : String)
  | alreadyExists
  | replacing (e : PgError)
  | unknownCodes (problems : List Problem)
  | writing (part : Part) (e : PgError)
  | categoryID (id : String)
  | itemID (id : String)
  | itemCategory (item category : String)
  deriving DecidableEq, Repr

/-! ## Codes -/

structure ContactTypeRow where
  id : UUID
  code : String
  deriving DecidableEq, Repr

/-- A map from codes, of rows with a code and an id. A later row replaces an earlier one. -/
def codeMap (rows : List (String × UUID)) : String → Option UUID :=
  rows.foldl (fun m row => Function.update m row.1 (some row.2)) fun _ => none

/-- The reference rows that have a code in one of the join tables. -/
def codeRows (db : Db) : Classification → List (String × UUID)
  | .tag => db.tags.map fun r => (r.code, r.id)
  | .allergen => db.allergens.map fun r => (r.code, r.id)
  | .additive => db.additives.map fun r => (r.code, r.id)

/-- `codeTables` -/
structure CodeTables where
  currencies : String → Bool
  contactType : String → Option UUID
  classified : Classification → String → Option UUID

/-- `unique`: the first of each. -/
def unique (problems : List Problem) : List Problem :=
  problems.foldl (fun out p => if p ∈ out then out else out ++ [p]) []

/-- An import: what it is called with, and the ids that are drawn for its rows. Contact types are not among
the tables of `Db`, as nothing changes them. -/
structure Importer where
  rt : Runtime
  /-- `strings.ToUpper` -/
  toUpper : String → String
  contactTypes : List ContactTypeRow
  actor : UUID
  overwrite : Bool
  /-- `now()` -/
  now : Time
  freshContact : Nat → UUID
  freshHours : Nat → UUID
  /-- of an item, the `k`-th -/
  freshModification : UUID → Nat → UUID

variable (imp : Importer)

def Importer.loadCodes (db : Db) : CodeTables where
  currencies := fun code => db.currencies.any fun r => imp.toUpper r.code == code
  contactType := codeMap (imp.contactTypes.map fun r => (r.code, r.id))
  classified := fun c => codeMap (codeRows db c)

/-- `check`: everything that the installation does not have. -/
def Importer.problems (codes : CodeTables) (r : Restaurant) : List Problem :=
  (if codes.currencies (imp.toUpper r.currency) then [] else [.currency r.currency]) ++
    (r.contacts.filter fun c => (codes.contactType c.type).isNone).map (fun c => .contactType c.type) ++
    r.items.flatMap fun item => [Classification.tag, .allergen, .additive].flatMap fun c =>
      ((item.codes c).filter fun code => (codes.classified c code).isNone).map (.classified c)

def Importer.check (codes : CodeTables) (r : Restaurant) : Except ImportError Unit :=
  if imp.problems codes r = [] then .ok () else .error (.unknownCodes (unique (imp.problems codes r)))

/-! ## The statements -/

/-- A number that an `integer` column has room for. -/
def int4 (n : Int) : Except PgError Int64 :=
  if -2 ^ 31 ≤ n ∧ n < 2 ^ 31 then .ok (Int64.ofInt n) else .error .outOfRange

/-- `restaurant_name_key`: another living restaurant has the name, up to case. -/
def restaurantNameTaken (rt : Runtime) (row : RestaurantRow) (db : Db) : Bool :=
  db.restaurants.any fun r => r.deletedAt.isNone && rt.lower r.name == rt.lower row.name

/-- `INSERT INTO restaurant` -/
def insertRestaurantRow (rt : Runtime) (row : RestaurantRow) (actor : UUID) (db : Db) : Except PgError Db :=
  if row.name.length < 1 || 200 < row.name.length || row.minOrderValueCents.any (· < 0) ||
      row.deliveryFeeCents.any (· < 0) then .error .checkViolation
  else if (db.restaurants.any fun r => r.id == row.id) || restaurantNameTaken rt row db then
    .error .uniqueViolation
  else if (!db.currencies.any fun c => c.code == row.currencyCode) || (db.userByID actor).isNone then
    .error .foreignKeyViolation
  else .ok (db.setRestaurants (db.restaurants ++ [row]))

/-- `INSERT INTO restaurant_contact`, with the `CHECK` constraints of its columns -/
def Importer.insertContact (typeID : UUID) (c : Contact) (row : RestaurantContactRow) (db : Db) :
    Except PgError Db := do
  let _ ← int4 c.sortOrder
  if c.value.length < 1 || 500 < c.value.length || 100 < c.label.length then .error .checkViolation
  else if db.restaurantContacts.any fun r => r.id == row.id then .error .uniqueViolation
  else if (!db.restaurants.any fun r => r.id == row.restaurantID) ||
      (!imp.contactTypes.any fun t => t.id == typeID) || (db.userByID imp.actor).isNone then
    .error .foreignKeyViolation
  else .ok { db with restaurantContacts := db.restaurantContacts ++ [row] }

/-- `INSERT INTO menu_item_tag`, and its two siblings -/
def insertLink (c : Classification) (row : MenuItemLinkRow) (actor : UUID) (db : Db) : Except PgError Db :=
  if (c.links db).contains row then .error .uniqueViolation
  else if (db.menuItem row.menuItemID).isNone || !c.known db row.targetID || (db.userByID actor).isNone then
    .error .foreignKeyViolation
  else .ok (c.setLinks db (c.links db ++ [row]))

/-- `db.HardDeleteRestaurant`; the row is there. -/
def hardDeleteRestaurant (id : UUID) (now : Time) (db : Db) : Except PgError Db :=
  (db.deleteFoodOrders fun o => o.restaurantID == id).deleteRestaurants now fun r => r.id == id

/-- The id of a code that was checked; the zero value of a map otherwise -/
def codeID (codes : String → Option UUID) (code : String) : UUID := (codes code).getD ⟨0⟩

/-- A statement whose error says what was being written. -/
def writing (part : Part) (r : Except PgError Db) : Except ImportError Db := r.mapError (.writing part)

/-! ## The import -/

namespace Importer

/-- The category that an item is put into -/
def categoryOf (item : Item) : Except ImportError (Option UUID) :=
  if item.category = "" then .ok none
  else match imp.rt.parseUUID item.category with
    | none => .error (.itemCategory item.name item.category)
    | some id => .ok (some id)

/-- The row of an item -/
def itemRow (restaurantID itemID : UUID) (categoryID : Option UUID) (item : Item) : MenuItemRow :=
  { id := itemID
    restaurantID := restaurantID
    categoryID := categoryID
    externalID := if item.externalID = "" then none else some item.externalID
    name := item.name
    description := some item.description
    imageID := none
    priceCents := item.priceCents
    available := item.available
    deletedAt := none
    createdAt := pgTime imp.now
    updatedAt := pgTime imp.now
    updatedBy := some imp.actor }

def insertModifications (itemID : UUID) (item : Item) : Db → Except ImportError Db :=
  each (fun k m db => writing (.modification item.name) do
    let sortOrder ← int4 m.sortOrder
    Db.insertModification imp.rt
      { id := imp.freshModification itemID k, menuItemID := itemID, name := m.name
        priceDeltaCents := m.priceDeltaCents, sortOrder, deletedAt := none } imp.actor db) 0 item.modifications

def insertItemLinks (codes : CodeTables) (itemID : UUID) (item : Item) (c : Classification) :
    Db → Except ImportError Db :=
  each (fun _ code db => writing (.link item.name c code) (insertLink c
    { menuItemID := itemID, targetID := codeID (codes.classified c) code } imp.actor db)) 0 (item.codes c)

/-- `insertItem`, once its ids are read -/
def writeItem (codes : CodeTables) (restaurantID itemID : UUID) (categoryID : Option UUID) (item : Item)
    (db : Db) : Except ImportError Db := do
  let db ← writing (.item item.name) ((Db.insertMenuItem imp.rt
    (imp.itemRow restaurantID itemID categoryID item) db).map Prod.fst)
  let db ← imp.insertModifications itemID item db
  let db ← imp.insertItemLinks codes itemID item .tag db
  let db ← imp.insertItemLinks codes itemID item .allergen db
  imp.insertItemLinks codes itemID item .additive db

def insertItem (codes : CodeTables) (restaurantID : UUID) (item : Item) (db : Db) : Except ImportError Db :=
  match imp.rt.parseUUID item.id with
  | none => .error (.itemID item.id)
  | some itemID => do
    let categoryID ← imp.categoryOf item
    imp.writeItem codes restaurantID itemID categoryID item db

def insertCategory (restaurantID : UUID) (category : Category) (db : Db) : Except ImportError Db :=
  match imp.rt.parseUUID category.id with
  | none => .error (.categoryID category.id)
  | some id => writing (.category category.name) do
    let sortOrder ← int4 category.sortOrder
    Db.insertCategory imp.rt { id, restaurantID, name := category.name, sortOrder, deletedAt := none } imp.actor db

/-- `insertRestaurant` up to the items -/
def insertHead (codes : CodeTables) (id : UUID) (r : Restaurant) (db : Db) : Except ImportError Db := do
  let db ← writing .restaurant (insertRestaurantRow imp.rt
    { id, name := r.name, logoImageID := none, currencyCode := imp.toUpper r.currency
      minOrderValueCents := r.minOrderValueCents, deliveryFeeCents := r.deliveryFeeCents
      deletedAt := none, updatedAt := pgTime imp.now } imp.actor db)
  let db ← each (fun k c db => writing .contact (imp.insertContact (codeID codes.contactType c.type) c
    { id := imp.freshContact k, restaurantID := id } db)) 0 r.contacts db
  let db ← each (fun k (h : Hours) db => writing .openingHours (db.insertOpeningHours id imp.actor
    (imp.freshHours k) { dayOfWeek := h.day, start := h.start, stop := h.stop })) 0 r.openingHours db
  each (fun _ => imp.insertCategory id) 0 r.categories db

def insertItems (codes : CodeTables) (id : UUID) : List Item → Db → Except ImportError Db :=
  each (fun _ => imp.insertItem codes id) 0

/-- What is there already is replaced, or refused. -/
def makeRoom (id : UUID) (db : Db) : Except ImportError Db :=
  if db.restaurants.any fun r => r.id == id then
    if imp.overwrite then (hardDeleteRestaurant id imp.now db).mapError .replacing else .error .alreadyExists
  else .ok db

/-- `Import` -/
def importRestaurant (r : Restaurant) (db : Db) : Except ImportError Db :=
  match imp.rt.parseUUID r.id with
  | none => .error (.restaurantID r.id)
  | some id => do
    let db ← imp.makeRoom id db
    let codes := imp.loadCodes db
    imp.check codes r
    let db ← imp.insertHead codes id r db
    imp.insertItems codes id r.items db

end Importer

end Transfer

end Doenerstag
