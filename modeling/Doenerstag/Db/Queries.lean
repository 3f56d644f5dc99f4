import Doenerstag.Db.Schema
import Doenerstag.Model.Availability
import Doenerstag.Model.Order

/-!
# What the statements about orders read

The `SELECT`s of `internal/db/orders.go`, `orderitems.go` and `availability.go` as functions of the
tables, each with the joins and the order it has in the source. A row that a primary key names is
the first with that key.
-/

namespace Doenerstag

/-- `coalesce(u.display_name, u.name)` -/
def AppUserRow.shownName (u : AppUserRow) : String := u.displayName.getD u.name

/-- What `AddOrderItem` reads of a dish. -/
structure OrderableItem where
  name : String
  price : Int64
  available : Bool
  categoryID : Option UUID
  fulfilment : Time
  deriving DecidableEq, Repr

namespace Db

variable (db : Db)

def userByID (id : UUID) : Option AppUserRow := db.appUsers.find? fun u => u.id == id

/-- The name of an account that may be absent, from a `LEFT JOIN`. -/
def shownNameOf (id : Option UUID) : String :=
  ((id.bind db.userByID).map AppUserRow.shownName).getD ""

def countOrderItems (orderID : UUID) : Int64 :=
  Int64.ofNat (db.orderItems.countP fun i => i.orderID == orderID)

def countMessages (orderID : UUID) : Int64 :=
  Int64.ofNat (db.orderMessages.countP fun m => m.orderID == orderID)

/-! ## Orders -/

/-- One row of `orderColumns` with `orderFrom`: an order whose restaurant and creator are there. -/
def scanOrder (o : FoodOrderRow) : Option Order := do
  let r ← db.restaurants.find? fun r => r.id == o.restaurantID
  let u ← db.userByID o.creatorID
  return {
    id := o.id
    creatorID := o.creatorID
    creatorName := u.shownName
    restaurantID := o.restaurantID
    restaurantName := r.name
    restaurantLogo := r.logoImageID
    fulfilment := o.fulfilment
    fulfilmentAt := o.fulfilmentAt
    deadlineAt := o.deadlineAt
    moneyCollectorID := o.moneyCollectorID
    moneyCollectorName := db.shownNameOf o.moneyCollectorID
    pickupPersonID := o.pickupPersonID
    pickupPersonName := db.shownNameOf o.pickupPersonID
    moneyCollectorDrawn := o.moneyCollectorDrawn
    pickupPersonDrawn := o.pickupPersonDrawn
    currencyCode := o.currencyCode
    minOrderValueCents := o.minOrderValueCents
    deliveryFeeCents := o.deliveryFeeCents
    itemCount := db.countOrderItems o.id
    createdAt := o.createdAt
    updatedAt := o.updatedAt }

def foodOrder (id : UUID) : Option FoodOrderRow := db.foodOrders.find? fun o => o.id == id

theorem foodOrder_id {id : UUID} {o : FoodOrderRow} (h : db.foodOrder id = some o) : o.id = id := by
  have hsel := List.find?_some h
  simpa using hsel

def orderByID (id : UUID) : Option Order := (db.foodOrder id).bind db.scanOrder

theorem orderByID_eq_some {id : UUID} {order : Order} (h : db.orderByID id = some order) :
    order.id = id ∧ ∃ o, db.foodOrder id = some o ∧ order.deadlineAt = o.deadlineAt := by
  obtain ⟨o, ho, hscan⟩ := Option.bind_eq_some_iff.mp h
  have hid : o.id = id := foodOrder_id db ho
  unfold scanOrder at hscan
  obtain ⟨r, -, hscan⟩ := Option.bind_eq_some_iff.mp hscan
  obtain ⟨u, -, hscan⟩ := Option.bind_eq_some_iff.mp hscan
  cases hscan
  exact ⟨hid, o, ho, rfl⟩

def restaurantExists (id : UUID) : Bool :=
  db.restaurants.any fun r => r.id == id && r.deletedAt.isNone

/-! ## Order items -/

/-- One row of `orderItemColumns`, the modifications still missing. -/
def scanOrderItem (i : OrderItemRow) : Option OrderItem := do
  let u ← db.userByID i.userID
  return {
    id := i.id
    orderID := i.orderID
    userID := i.userID
    userName := u.shownName
    menuItemID := i.menuItemID
    quantity := i.quantity
    itemName := i.itemName
    unitPriceCents := i.unitPriceCents
    note := i.note.getD ""
    modifications := []
    paid := i.paid
    createdAt := i.createdAt
    updatedAt := i.updatedAt }

def orderItem (id : UUID) : Option OrderItemRow := db.orderItems.find? fun i => i.id == id

theorem orderItem_id {id : UUID} {i : OrderItemRow} (h : db.orderItem id = some i) : i.id = id := by
  have hsel := List.find?_some h
  simpa using hsel

def orderItemByID (id : UUID) : Option OrderItem := (db.orderItem id).bind db.scanOrderItem

def scanModification (m : OrderItemModificationRow) : OrderItemModification :=
  { id := m.id, orderItemID := m.orderItemID, modificationID := m.modificationID, name := m.name
    priceDeltaCents := m.priceDeltaCents }

def modificationsOf (itemID : UUID) : List OrderItemModificationRow :=
  db.orderItemModifications.filter fun m => m.orderItemID == itemID

/-- `loadModifications`: each item gets its own, by name. -/
def loadModifications (rt : Runtime) (items : List OrderItem) : List OrderItem :=
  items.map fun item =>
    let own := sliceStable (fun a b => rt.sortsBefore a.name b.name) (db.modificationsOf item.id)
    { item with modifications := own.map scanModification }

def itemsOf (orderID : UUID) : List OrderItemRow :=
  db.orderItems.filter fun i => i.orderID == orderID

/-- `ListOrderItems`, before the modifications are loaded: as the order was filled in. -/
def orderItemRows (orderID : UUID) : List OrderItem :=
  let sorted := sliceStable
    (fun a b => a.createdAt < b.createdAt || (a.createdAt == b.createdAt && a.id.n < b.id.n))
    (db.itemsOf orderID)
  sorted.filterMap db.scanOrderItem

def listOrderItems (rt : Runtime) (orderID : UUID) : List OrderItem :=
  db.loadModifications rt (db.orderItemRows orderID)

/-! ## The menu, as ordering sees it -/

def menuItem (id : UUID) : Option MenuItemRow := db.menuItems.find? fun m => m.id == id

theorem menuItem_id {id : UUID} {m : MenuItemRow} (h : db.menuItem id = some m) : m.id = id := by
  have hsel := List.find?_some h
  simpa using hsel

/-- The dish, when it is on the menu of the order's restaurant. -/
def orderableItem (orderID menuItemID : UUID) : Option OrderableItem := do
  let m ← db.menuItem menuItemID
  let o ← db.foodOrder orderID
  if m.deletedAt.isNone && m.restaurantID == o.restaurantID then
    return { name := m.name, price := m.priceCents, available := m.available
             categoryID := m.categoryID, fulfilment := o.fulfilmentAt }
  else
    none

theorem orderableItem_eq_some {db : Db} {orderID menuItemID : UUID} {dish : OrderableItem}
    (h : db.orderableItem orderID menuItemID = some dish) :
    ∃ m o, db.menuItem menuItemID = some m ∧ db.foodOrder orderID = some o ∧ m.deletedAt.isNone = true ∧
      m.restaurantID = o.restaurantID ∧
      dish = { name := m.name, price := m.priceCents, available := m.available, categoryID := m.categoryID
               fulfilment := o.fulfilmentAt } := by
  obtain ⟨m, hm, h⟩ := Option.bind_eq_some_iff.mp h
  obtain ⟨o, ho, h⟩ := Option.bind_eq_some_iff.mp h
  split_ifs at h with hsame
  obtain ⟨hliving, hrestaurant⟩ := Bool.and_eq_true_iff.mp hsame
  exact ⟨m, o, hm, ho, hliving, beq_iff_eq.mp hrestaurant, (Option.some.inj h).symm⟩

def scanAvailabilityFilter (f : AvailabilityFilterRow) : AvailabilityFilter :=
  { id := f.id, restaurantID := f.restaurantID, name := f.name, onDate := f.onDate
    weekdays := f.weekdays, startTime := f.startTime, endTime := f.endTime
    sortOrder := f.sortOrder }

/-- The filters with the given ids, in the order they are listed in. -/
def filtersForOne (rt : Runtime) (ids : List UUID) : List AvailabilityFilter :=
  let rows := ids.filterMap fun id => db.availabilityFilters.find? fun f => f.id == id
  let sorted := sliceStable
    (fun a b => a.sortOrder < b.sortOrder ||
      (a.sortOrder == b.sortOrder && rt.sortsBefore (rt.lower a.name) (rt.lower b.name))) rows
  sorted.map scanAvailabilityFilter

def filtersForCategory (rt : Runtime) (categoryID : UUID) : List AvailabilityFilter :=
  db.filtersForOne rt
    ((db.menuCategoryAvailability.filter fun a => a.categoryID == categoryID).map (·.filterID))

def filtersForMenuItem (rt : Runtime) (menuItemID : UUID) : List AvailabilityFilter :=
  db.filtersForOne rt
    ((db.menuItemAvailability.filter fun a => a.menuItemID == menuItemID).map (·.filterID))

/-- The living modifications of a dish among the selected ones. -/
def selectedModifications (modificationIDs : List UUID) (menuItemID : UUID) :
    List MenuItemModificationRow :=
  db.menuItemModifications.filter fun m =>
    modificationIDs.contains m.id && m.menuItemID == menuItemID && m.deletedAt.isNone

end Db

end Doenerstag
