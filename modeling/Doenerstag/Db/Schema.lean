import Doenerstag.Go
import Doenerstag.Lib.Tables

/-!
# The database schema (`migrations/`)

One structure for each table, with the columns that statements read or write, and `Db`, all the
tables together. Instants in a column are whole microseconds (`pgTime`).

What the migrations declare about the rows is `Db.Valid`, in three parts: the primary and unique
keys, the foreign keys, and the `CHECK` constraints.
-/

namespace Doenerstag

open Tables

/-- An instant as a `timestamptz` column holds it: the nanoseconds are cut off. -/
def pgTime (t : Time) : Time := t - t % 1000

theorem pgTime_le (t : Time) : pgTime t ≤ t :=
  Int.sub_le_self t (Int.emod_nonneg t (by decide))

/-! ## Accounts -/

/-- The account that stands in for deleted ones. -/
def deletedUserID : UUID := ⟨0x00000000000070008000000000000000⟩

structure AppUserRow where
  id : UUID
  name : String
  displayName : Option String
  passwordHash : String
  email : Option String
  isAdmin : Bool
  lastLoginAt : Option Time
  deriving DecidableEq, Repr

structure SessionRow where
  id : UUID
  userID : UUID
  issuedAt : Time
  lastSeenAt : Time
  absoluteExpires : Time
  remoteAddr : Option String
  userAgent : Option String
  deriving DecidableEq, Repr

structure APITokenRow where
  id : UUID
  userID : UUID
  name : String
  tokenHash : String
  tokenPrefix : String
  expiresAt : Option Time
  lastUsedAt : Option Time
  deriving DecidableEq, Repr

/-! ## Reference data -/

structure CurrencyRow where
  code : String
  deriving DecidableEq, Repr

structure TagRow where
  id : UUID
  code : String
  deriving DecidableEq, Repr

structure AllergenRow where
  id : UUID
  code : String
  deriving DecidableEq, Repr

structure AdditiveRow where
  id : UUID
  code : String
  deriving DecidableEq, Repr

structure ImageRow where
  id : UUID
  mediaType : String
  data : List UInt8
  thumbMediaType : String
  thumbData : List UInt8
  sha256 : List UInt8
  createdAt : Time
  deriving DecidableEq, Repr

/-! ## Restaurants and their menus -/

structure RestaurantRow where
  id : UUID
  name : String
  logoImageID : Option UUID
  currencyCode : String
  minOrderValueCents : Option Int64
  deliveryFeeCents : Option Int64
  deletedAt : Option Time
  updatedAt : Time
  deriving DecidableEq, Repr

structure RestaurantContactRow where
  id : UUID
  restaurantID : UUID
  deriving DecidableEq, Repr

structure OpeningHoursRow where
  id : UUID
  restaurantID : UUID
  dayOfWeek : Int
  /-- minutes since midnight -/
  startTime : Int
  endTime : Int
  deriving DecidableEq, Repr

structure AvailabilityFilterRow where
  id : UUID
  restaurantID : UUID
  name : String
  /-- the date's `(year, month, day)` -/
  onDate : Option (Int × Int × Int)
  weekdays : List Int
  /-- minutes since midnight -/
  startTime : Option Int
  endTime : Option Int
  sortOrder : Int64
  deriving DecidableEq, Repr

structure MenuCategoryRow where
  id : UUID
  restaurantID : UUID
  name : String
  sortOrder : Int64
  deletedAt : Option Time
  deriving DecidableEq, Repr

structure MenuItemRow where
  id : UUID
  restaurantID : UUID
  categoryID : Option UUID
  externalID : Option String
  name : String
  description : Option String
  imageID : Option UUID
  priceCents : Int64
  available : Bool
  deletedAt : Option Time
  createdAt : Time
  updatedAt : Time
  updatedBy : Option UUID
  deriving DecidableEq, Repr

structure MenuItemModificationRow where
  id : UUID
  menuItemID : UUID
  name : String
  priceDeltaCents : Int64
  sortOrder : Int64
  deletedAt : Option Time
  deriving DecidableEq, Repr

/-- A row of `menu_item_tag`, `menu_item_allergen` or `menu_item_additive`. -/
structure MenuItemLinkRow where
  menuItemID : UUID
  targetID : UUID
  deriving DecidableEq, Repr

structure MenuCategoryAvailabilityRow where
  categoryID : UUID
  filterID : UUID
  deriving DecidableEq, Repr

structure MenuItemAvailabilityRow where
  menuItemID : UUID
  filterID : UUID
  deriving DecidableEq, Repr

/-! ## Orders -/

structure FoodOrderRow where
  id : UUID
  creatorID : UUID
  restaurantID : UUID
  fulfilment : String
  fulfilmentAt : Time
  deadlineAt : Time
  moneyCollectorID : Option UUID
  pickupPersonID : Option UUID
  moneyCollectorDrawn : Bool
  pickupPersonDrawn : Bool
  jobsDrawn : Bool
  currencyCode : String
  minOrderValueCents : Option Int64
  deliveryFeeCents : Option Int64
  createdAt : Time
  updatedAt : Time
  updatedBy : Option UUID
  deriving DecidableEq, Repr

structure OrderItemRow where
  id : UUID
  orderID : UUID
  userID : UUID
  menuItemID : UUID
  quantity : Int64
  itemName : String
  unitPriceCents : Int64
  note : Option String
  paid : Bool
  createdAt : Time
  updatedAt : Time
  updatedBy : Option UUID
  deriving DecidableEq, Repr

structure OrderItemModificationRow where
  id : UUID
  orderItemID : UUID
  modificationID : Option UUID
  name : String
  priceDeltaCents : Int64
  deriving DecidableEq, Repr

structure OrderMessageRow where
  id : UUID
  orderID : UUID
  userID : UUID
  body : String
  createdAt : Time
  deriving DecidableEq, Repr

/-! ## The tables -/

structure Db where
  appUsers : List AppUserRow
  sessions : List SessionRow
  apiTokens : List APITokenRow
  currencies : List CurrencyRow
  tags : List TagRow
  allergens : List AllergenRow
  additives : List AdditiveRow
  images : List ImageRow
  restaurants : List RestaurantRow
  restaurantContacts : List RestaurantContactRow
  openingHours : List OpeningHoursRow
  availabilityFilters : List AvailabilityFilterRow
  menuCategories : List MenuCategoryRow
  menuItems : List MenuItemRow
  menuItemModifications : List MenuItemModificationRow
  menuItemTags : List MenuItemLinkRow
  menuItemAllergens : List MenuItemLinkRow
  menuItemAdditives : List MenuItemLinkRow
  menuCategoryAvailability : List MenuCategoryAvailabilityRow
  menuItemAvailability : List MenuItemAvailabilityRow
  foodOrders : List FoodOrderRow
  orderItems : List OrderItemRow
  orderItemModifications : List OrderItemModificationRow
  orderMessages : List OrderMessageRow
  deriving DecidableEq, Repr

/-- A database with empty tables. -/
def Db.empty : Db :=
  { appUsers := [], sessions := [], apiTokens := [], currencies := [], tags := [], allergens := []
    additives := [], images := [], restaurants := [], restaurantContacts := [], openingHours := []
    availabilityFilters := [], menuCategories := [], menuItems := [], menuItemModifications := []
    menuItemTags := [], menuItemAllergens := [], menuItemAdditives := []
    menuCategoryAvailability := [], menuItemAvailability := [], foodOrders := [], orderItems := []
    orderItemModifications := [], orderMessages := [] }

/-! ## Keys and references

Each foreign-key column as a nullable reference; a `NOT NULL` one is always present. The category
of a menu item is referenced together with the restaurant (migration 14), so that a dish cannot be
put into another restaurant's category. -/

def SessionRow.user (s : SessionRow) : Option UUID := some s.userID
def APITokenRow.user (t : APITokenRow) : Option UUID := some t.userID
def RestaurantContactRow.restaurant (c : RestaurantContactRow) : Option UUID := some c.restaurantID
def OpeningHoursRow.restaurant (h : OpeningHoursRow) : Option UUID := some h.restaurantID
def AvailabilityFilterRow.restaurant (f : AvailabilityFilterRow) : Option UUID :=
  some f.restaurantID
def RestaurantRow.currency (r : RestaurantRow) : Option String := some r.currencyCode

def MenuCategoryRow.key (c : MenuCategoryRow) : UUID × UUID := (c.restaurantID, c.id)
def MenuCategoryRow.restaurant (c : MenuCategoryRow) : Option UUID := some c.restaurantID

def MenuItemRow.restaurant (m : MenuItemRow) : Option UUID := some m.restaurantID
def MenuItemRow.category (m : MenuItemRow) : Option (UUID × UUID) :=
  m.categoryID.map (m.restaurantID, ·)

def MenuItemModificationRow.menuItem (m : MenuItemModificationRow) : Option UUID :=
  some m.menuItemID
def MenuItemLinkRow.menuItem (l : MenuItemLinkRow) : Option UUID := some l.menuItemID
def MenuItemLinkRow.target (l : MenuItemLinkRow) : Option UUID := some l.targetID
def MenuCategoryAvailabilityRow.category (l : MenuCategoryAvailabilityRow) : Option UUID :=
  some l.categoryID
def MenuCategoryAvailabilityRow.filter (l : MenuCategoryAvailabilityRow) : Option UUID :=
  some l.filterID
def MenuItemAvailabilityRow.menuItem (l : MenuItemAvailabilityRow) : Option UUID :=
  some l.menuItemID
def MenuItemAvailabilityRow.filter (l : MenuItemAvailabilityRow) : Option UUID := some l.filterID

def FoodOrderRow.creator (o : FoodOrderRow) : Option UUID := some o.creatorID
def FoodOrderRow.restaurant (o : FoodOrderRow) : Option UUID := some o.restaurantID
def FoodOrderRow.currency (o : FoodOrderRow) : Option String := some o.currencyCode

def OrderItemRow.order (i : OrderItemRow) : Option UUID := some i.orderID
def OrderItemRow.user (i : OrderItemRow) : Option UUID := some i.userID
def OrderItemRow.menuItem (i : OrderItemRow) : Option UUID := some i.menuItemID
def OrderItemModificationRow.orderItem (m : OrderItemModificationRow) : Option UUID :=
  some m.orderItemID
def OrderMessageRow.order (m : OrderMessageRow) : Option UUID := some m.orderID
def OrderMessageRow.user (m : OrderMessageRow) : Option UUID := some m.userID

/-- The primary keys, and one session for each account. -/
structure Db.Keys (db : Db) : Prop where
  appUsers : (db.appUsers.map AppUserRow.id).Nodup
  sessions : (db.sessions.map SessionRow.id).Nodup
  sessionOnePerUser : (db.sessions.map SessionRow.userID).Nodup
  apiTokens : (db.apiTokens.map APITokenRow.id).Nodup
  images : (db.images.map ImageRow.id).Nodup
  restaurants : (db.restaurants.map RestaurantRow.id).Nodup
  availabilityFilters : (db.availabilityFilters.map AvailabilityFilterRow.id).Nodup
  menuCategories : (db.menuCategories.map MenuCategoryRow.id).Nodup
  menuItems : (db.menuItems.map MenuItemRow.id).Nodup
  menuItemModifications : (db.menuItemModifications.map MenuItemModificationRow.id).Nodup
  menuItemTags : db.menuItemTags.Nodup
  menuItemAllergens : db.menuItemAllergens.Nodup
  menuItemAdditives : db.menuItemAdditives.Nodup
  foodOrders : (db.foodOrders.map FoodOrderRow.id).Nodup
  orderItems : (db.orderItems.map OrderItemRow.id).Nodup
  orderItemModifications : (db.orderItemModifications.map OrderItemModificationRow.id).Nodup
  orderMessages : (db.orderMessages.map OrderMessageRow.id).Nodup

/-- The foreign keys. -/
structure Db.References (db : Db) : Prop where
  sessionUser : Refers SessionRow.user AppUserRow.id db.sessions db.appUsers
  apiTokenUser : Refers APITokenRow.user AppUserRow.id db.apiTokens db.appUsers
  restaurantLogo : Refers RestaurantRow.logoImageID ImageRow.id db.restaurants db.images
  restaurantCurrency :
    Refers RestaurantRow.currency CurrencyRow.code db.restaurants db.currencies
  contactRestaurant :
    Refers RestaurantContactRow.restaurant RestaurantRow.id db.restaurantContacts db.restaurants
  hoursRestaurant :
    Refers OpeningHoursRow.restaurant RestaurantRow.id db.openingHours db.restaurants
  filterRestaurant :
    Refers AvailabilityFilterRow.restaurant RestaurantRow.id db.availabilityFilters db.restaurants
  categoryRestaurant :
    Refers MenuCategoryRow.restaurant RestaurantRow.id db.menuCategories db.restaurants
  menuItemRestaurant : Refers MenuItemRow.restaurant RestaurantRow.id db.menuItems db.restaurants
  menuItemCategory : Refers MenuItemRow.category MenuCategoryRow.key db.menuItems db.menuCategories
  menuItemImage : Refers MenuItemRow.imageID ImageRow.id db.menuItems db.images
  modificationMenuItem :
    Refers MenuItemModificationRow.menuItem MenuItemRow.id db.menuItemModifications db.menuItems
  tagMenuItem : Refers MenuItemLinkRow.menuItem MenuItemRow.id db.menuItemTags db.menuItems
  tagTarget : Refers MenuItemLinkRow.target TagRow.id db.menuItemTags db.tags
  allergenMenuItem :
    Refers MenuItemLinkRow.menuItem MenuItemRow.id db.menuItemAllergens db.menuItems
  allergenTarget : Refers MenuItemLinkRow.target AllergenRow.id db.menuItemAllergens db.allergens
  additiveMenuItem :
    Refers MenuItemLinkRow.menuItem MenuItemRow.id db.menuItemAdditives db.menuItems
  additiveTarget : Refers MenuItemLinkRow.target AdditiveRow.id db.menuItemAdditives db.additives
  categoryAvailabilityCategory :
    Refers MenuCategoryAvailabilityRow.category MenuCategoryRow.id db.menuCategoryAvailability
      db.menuCategories
  categoryAvailabilityFilter :
    Refers MenuCategoryAvailabilityRow.filter AvailabilityFilterRow.id db.menuCategoryAvailability
      db.availabilityFilters
  itemAvailabilityMenuItem :
    Refers MenuItemAvailabilityRow.menuItem MenuItemRow.id db.menuItemAvailability db.menuItems
  itemAvailabilityFilter :
    Refers MenuItemAvailabilityRow.filter AvailabilityFilterRow.id db.menuItemAvailability
      db.availabilityFilters
  orderCreator : Refers FoodOrderRow.creator AppUserRow.id db.foodOrders db.appUsers
  orderRestaurant : Refers FoodOrderRow.restaurant RestaurantRow.id db.foodOrders db.restaurants
  orderCurrency : Refers FoodOrderRow.currency CurrencyRow.code db.foodOrders db.currencies
  orderMoneyCollector :
    Refers FoodOrderRow.moneyCollectorID AppUserRow.id db.foodOrders db.appUsers
  orderPickupPerson : Refers FoodOrderRow.pickupPersonID AppUserRow.id db.foodOrders db.appUsers
  itemOrder : Refers OrderItemRow.order FoodOrderRow.id db.orderItems db.foodOrders
  itemUser : Refers OrderItemRow.user AppUserRow.id db.orderItems db.appUsers
  itemMenuItem : Refers OrderItemRow.menuItem MenuItemRow.id db.orderItems db.menuItems
  snapshotItem :
    Refers OrderItemModificationRow.orderItem OrderItemRow.id db.orderItemModifications
      db.orderItems
  snapshotModification :
    Refers OrderItemModificationRow.modificationID MenuItemModificationRow.id
      db.orderItemModifications db.menuItemModifications
  messageOrder : Refers OrderMessageRow.order FoodOrderRow.id db.orderMessages db.foodOrders
  messageUser : Refers OrderMessageRow.user AppUserRow.id db.orderMessages db.appUsers

/-- `CHECK` constraints of `food_order`. -/
def FoodOrderRow.Check (o : FoodOrderRow) : Prop :=
  (o.fulfilment = "pickup" ∨ o.fulfilment = "delivery") ∧ o.deadlineAt < o.fulfilmentAt ∧
    (∀ c ∈ o.minOrderValueCents, 0 ≤ c) ∧ (∀ c ∈ o.deliveryFeeCents, 0 ≤ c)

/-- `CHECK` constraints of `order_item`. -/
def OrderItemRow.Check (i : OrderItemRow) : Prop :=
  1 ≤ i.quantity ∧ 0 ≤ i.unitPriceCents ∧ (1 ≤ i.itemName.length ∧ i.itemName.length ≤ 200) ∧
    ∀ n ∈ i.note, n.length ≤ 500

/-- `CHECK` constraints of `menu_item`. -/
def MenuItemRow.Check (m : MenuItemRow) : Prop :=
  (1 ≤ m.name.length ∧ m.name.length ≤ 200) ∧ 0 ≤ m.priceCents

instance (o : FoodOrderRow) : Decidable o.Check :=
  letI (c : Option Int64) : Decidable (∀ x ∈ c, 0 ≤ x) := c.decidableForallMem
  inferInstanceAs (Decidable (_ ∧ _))
instance (i : OrderItemRow) : Decidable i.Check := inferInstanceAs (Decidable (_ ∧ _))
instance (m : MenuItemRow) : Decidable m.Check := inferInstanceAs (Decidable (_ ∧ _))

structure Db.Checks (db : Db) : Prop where
  foodOrders : ∀ o ∈ db.foodOrders, o.Check
  orderItems : ∀ i ∈ db.orderItems, i.Check
  menuItems : ∀ m ∈ db.menuItems, m.Check

/-- **What the schema promises of every state.** -/
structure Db.Valid (db : Db) : Prop where
  keys : db.Keys
  refs : db.References
  checks : db.Checks

end Doenerstag
