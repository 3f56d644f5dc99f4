import Doenerstag.Db.Errors
import Doenerstag.Db.Schema
import Mathlib.Tactic.Simps.Basic

/-!
# Deleting rows, with the schema's referential actions

One function for each table a `DELETE` of the program is about. Each removes the rows a predicate
selects and carries out what the foreign keys into the table declare: the rows that depend on a
removed one go as well, a nullable reference to it is cleared, and an `ON DELETE RESTRICT` reference
to it fails the statement.

* `Db.Valid.deleteFoodOrders`, … — **no deletion breaks the schema.**
-/

namespace Doenerstag

open Tables

/-! ## Clearing a reference

A row whose reference is set to null is an updated row, so the trigger `set_updated_at` stamps it. -/

def OrderItemModificationRow.forget (m : OrderItemModificationRow) : OrderItemModificationRow :=
  { m with modificationID := none }

def MenuItemRow.uncategorise (clock : Time) (m : MenuItemRow) : MenuItemRow :=
  { m with categoryID := none, updatedAt := clock }

def MenuItemRow.unpicture (clock : Time) (m : MenuItemRow) : MenuItemRow :=
  { m with imageID := none, updatedAt := clock }

def RestaurantRow.unpicture (clock : Time) (r : RestaurantRow) : RestaurantRow :=
  { r with logoImageID := none, updatedAt := clock }

namespace Db

/-! ## The deletions -/

variable (db : Db)

/-- `DELETE FROM order_item`: the snapshots of its modifications go with an item. -/
@[simps] def deleteOrderItems (doomed : OrderItemRow → Bool) : Db :=
  let lost := gone OrderItemRow.id doomed db.orderItems
  { db with
    orderItems := keep doomed db.orderItems
    orderItemModifications :=
      keep (dangling OrderItemModificationRow.orderItem lost) db.orderItemModifications }

/-- `DELETE FROM food_order`: its items and its messages go with an order. -/
@[simps] def deleteFoodOrders (doomed : FoodOrderRow → Bool) : Db :=
  let lost := gone FoodOrderRow.id doomed db.foodOrders
  let emptied := db.deleteOrderItems (dangling OrderItemRow.order lost)
  { emptied with
    foodOrders := keep doomed emptied.foodOrders
    orderMessages := keep (dangling OrderMessageRow.order lost) emptied.orderMessages }


/-- `DELETE FROM menu_item_modification`: the snapshots that name it lose the reference. -/
@[simps] def deleteMenuItemModifications (doomed : MenuItemModificationRow → Bool) : Db :=
  let lost := gone MenuItemModificationRow.id doomed db.menuItemModifications
  { db with
    menuItemModifications := keep doomed db.menuItemModifications
    orderItemModifications :=
      setNull OrderItemModificationRow.modificationID OrderItemModificationRow.forget lost
        db.orderItemModifications }

/-- What goes with deleted dishes: their modifications and their links. -/
@[simps] def cascadeMenuItems (doomed : MenuItemRow → Bool) : Db :=
  let lost := gone MenuItemRow.id doomed db.menuItems
  let emptied := db.deleteMenuItemModifications (dangling MenuItemModificationRow.menuItem lost)
  { emptied with
    menuItems := keep doomed emptied.menuItems
    menuItemTags := keep (dangling MenuItemLinkRow.menuItem lost) emptied.menuItemTags
    menuItemAllergens := keep (dangling MenuItemLinkRow.menuItem lost) emptied.menuItemAllergens
    menuItemAdditives := keep (dangling MenuItemLinkRow.menuItem lost) emptied.menuItemAdditives
    menuItemAvailability :=
      keep (dangling MenuItemAvailabilityRow.menuItem lost) emptied.menuItemAvailability }

/-- `DELETE FROM menu_item`: fails when an order item refers to one of the dishes. -/
def deleteMenuItems (doomed : MenuItemRow → Bool) : Except PgError Db :=
  if db.orderItems.any (dangling OrderItemRow.menuItem (gone MenuItemRow.id doomed db.menuItems))
  then .error .restrictViolation
  else .ok (db.cascadeMenuItems doomed)

/-- `DELETE FROM menu_category` at `clock`: the dishes in it fall into no category. -/
@[simps] def deleteMenuCategories (clock : Time) (doomed : MenuCategoryRow → Bool) : Db :=
  let lost := gone MenuCategoryRow.id doomed db.menuCategories
  { db with
    menuCategories := keep doomed db.menuCategories
    menuItems :=
      setNull MenuItemRow.category (MenuItemRow.uncategorise clock)
        (gone MenuCategoryRow.key doomed db.menuCategories) db.menuItems
    menuCategoryAvailability :=
      keep (dangling MenuCategoryAvailabilityRow.category lost) db.menuCategoryAvailability }

/-- `DELETE FROM availability_filter` -/
@[simps] def deleteAvailabilityFilters (doomed : AvailabilityFilterRow → Bool) : Db :=
  let lost := gone AvailabilityFilterRow.id doomed db.availabilityFilters
  { db with
    availabilityFilters := keep doomed db.availabilityFilters
    menuCategoryAvailability :=
      keep (dangling MenuCategoryAvailabilityRow.filter lost) db.menuCategoryAvailability
    menuItemAvailability :=
      keep (dangling MenuItemAvailabilityRow.filter lost) db.menuItemAvailability }

/-- The restaurants themselves, with their contacts and hours. -/
@[simps] def dropRestaurants (doomed : RestaurantRow → Bool) : Db :=
  let lost := gone RestaurantRow.id doomed db.restaurants
  { db with
    restaurants := keep doomed db.restaurants
    restaurantContacts := keep (dangling RestaurantContactRow.restaurant lost) db.restaurantContacts
    openingHours := keep (dangling OpeningHoursRow.restaurant lost) db.openingHours }

/-- What goes with deleted restaurants besides: the menu and the filters. -/
def cascadeRestaurants (clock : Time) (doomed : RestaurantRow → Bool) : Db :=
  let lost := gone RestaurantRow.id doomed db.restaurants
  (((db.cascadeMenuItems (dangling MenuItemRow.restaurant lost)).deleteMenuCategories clock
    (dangling MenuCategoryRow.restaurant lost)).deleteAvailabilityFilters
    (dangling AvailabilityFilterRow.restaurant lost)).dropRestaurants doomed

/-- `DELETE FROM restaurant` at `clock`: fails when an order is at one of the restaurants, or when
the menu that goes with them holds an ordered dish. -/
def deleteRestaurants (clock : Time) (doomed : RestaurantRow → Bool) : Except PgError Db :=
  let lost := gone RestaurantRow.id doomed db.restaurants
  let dishes := gone MenuItemRow.id (dangling MenuItemRow.restaurant lost) db.menuItems
  if db.foodOrders.any (dangling FoodOrderRow.restaurant lost) ||
      db.orderItems.any (dangling OrderItemRow.menuItem dishes)
  then .error .restrictViolation
  else .ok (db.cascadeRestaurants clock doomed)

/-- `DELETE FROM image` at `clock`: the restaurants and dishes that show it lose their picture. -/
@[simps] def deleteImages (clock : Time) (doomed : ImageRow → Bool) : Db :=
  let lost := gone ImageRow.id doomed db.images
  { db with
    images := keep doomed db.images
    restaurants :=
      setNull RestaurantRow.logoImageID (RestaurantRow.unpicture clock) lost db.restaurants
    menuItems := setNull MenuItemRow.imageID (MenuItemRow.unpicture clock) lost db.menuItems }

/-- `DELETE FROM session` -/
@[simps] def deleteSessions (doomed : SessionRow → Bool) : Db :=
  { db with sessions := keep doomed db.sessions }

/-- `DELETE FROM api_token` -/
@[simps] def deleteAPITokens (doomed : APITokenRow → Bool) : Db :=
  { db with apiTokens := keep doomed db.apiTokens }

/-! ## Deleting nothing -/

theorem deleteFoodOrders_eq_self {doomed : FoodOrderRow → Bool}
    (h : ∀ o ∈ db.foodOrders, doomed o = false) : db.deleteFoodOrders doomed = db := by
  simp [deleteFoodOrders, deleteOrderItems, gone_eq_none h, gone_eq_none, keep_eq_self h]

theorem deleteMenuItemModifications_eq_self {doomed : MenuItemModificationRow → Bool}
    (h : ∀ m ∈ db.menuItemModifications, doomed m = false) :
    db.deleteMenuItemModifications doomed = db := by
  simp [deleteMenuItemModifications, gone_eq_none h, keep_eq_self h]

theorem cascadeMenuItems_eq_self {doomed : MenuItemRow → Bool}
    (h : ∀ m ∈ db.menuItems, doomed m = false) : db.cascadeMenuItems doomed = db := by
  simp [cascadeMenuItems, deleteMenuItemModifications, gone_eq_none h, gone_eq_none,
    keep_eq_self h]

theorem deleteMenuItems_eq_self {doomed : MenuItemRow → Bool}
    (h : ∀ m ∈ db.menuItems, doomed m = false) : db.deleteMenuItems doomed = .ok db := by
  simp [deleteMenuItems, gone_eq_none h, db.cascadeMenuItems_eq_self h]

theorem deleteMenuCategories_eq_self (clock : Time) {doomed : MenuCategoryRow → Bool}
    (h : ∀ c ∈ db.menuCategories, doomed c = false) :
    db.deleteMenuCategories clock doomed = db := by
  simp [deleteMenuCategories, gone_eq_none h, keep_eq_self h]

theorem deleteAvailabilityFilters_eq_self {doomed : AvailabilityFilterRow → Bool}
    (h : ∀ f ∈ db.availabilityFilters, doomed f = false) :
    db.deleteAvailabilityFilters doomed = db := by
  simp [deleteAvailabilityFilters, gone_eq_none h, keep_eq_self h]

theorem cascadeRestaurants_eq_self (clock : Time) {doomed : RestaurantRow → Bool}
    (h : ∀ r ∈ db.restaurants, doomed r = false) : db.cascadeRestaurants clock doomed = db := by
  have hitems := db.cascadeMenuItems_eq_self fun _ _ => rfl
  have hcategories := db.deleteMenuCategories_eq_self clock fun _ _ => rfl
  have hfilters := db.deleteAvailabilityFilters_eq_self fun _ _ => rfl
  simp [cascadeRestaurants, gone_eq_none h, hitems, hcategories, hfilters, dropRestaurants,
    keep_eq_self h]

theorem deleteRestaurants_eq_self (clock : Time) {doomed : RestaurantRow → Bool}
    (h : ∀ r ∈ db.restaurants, doomed r = false) : db.deleteRestaurants clock doomed = .ok db := by
  have hdishes : gone MenuItemRow.id (fun _ => false) db.menuItems = fun _ => false :=
    gone_eq_none fun _ _ => rfl
  simp [deleteRestaurants, gone_eq_none h, hdishes, db.cascadeRestaurants_eq_self clock h]

theorem deleteImages_eq_self (clock : Time) {doomed : ImageRow → Bool}
    (h : ∀ i ∈ db.images, doomed i = false) : db.deleteImages clock doomed = db := by
  simp [deleteImages, gone_eq_none h, keep_eq_self h]

theorem deleteSessions_eq_self {doomed : SessionRow → Bool}
    (h : ∀ s ∈ db.sessions, doomed s = false) : db.deleteSessions doomed = db := by
  simp [deleteSessions, keep_eq_self h]

theorem deleteAPITokens_eq_self {doomed : APITokenRow → Bool}
    (h : ∀ t ∈ db.apiTokens, doomed t = false) : db.deleteAPITokens doomed = db := by
  simp [deleteAPITokens, keep_eq_self h]

/-! ## The schema survives -/

namespace Valid

variable {db}

theorem deleteOrderItems (h : db.Valid) (doomed : OrderItemRow → Bool) :
    (db.deleteOrderItems doomed).Valid where
  keys := { h.keys with
    orderItems := nodup_keep h.keys.orderItems
    orderItemModifications := nodup_keep h.keys.orderItemModifications }
  refs := { h.refs with
    itemOrder := h.refs.itemOrder.keep_child _
    itemUser := h.refs.itemUser.keep_child _
    itemMenuItem := h.refs.itemMenuItem.keep_child _
    snapshotItem := h.refs.snapshotItem.cascade doomed
    snapshotModification := h.refs.snapshotModification.keep_child _ }
  checks := { h.checks with
    orderItems := fun i hi => h.checks.orderItems i (mem_keep.1 hi).1 }

theorem deleteFoodOrders (h : db.Valid) (doomed : FoodOrderRow → Bool) :
    (db.deleteFoodOrders doomed).Valid := by
  have hemptied : (db.deleteOrderItems _).Valid :=
    h.deleteOrderItems (dangling OrderItemRow.order (gone FoodOrderRow.id doomed db.foodOrders))
  refine ⟨?_, ?_, ?_⟩
  · exact { hemptied.keys with
      foodOrders := nodup_keep h.keys.foodOrders
      orderMessages := nodup_keep h.keys.orderMessages }
  · exact { hemptied.refs with
      orderCreator := h.refs.orderCreator.keep_child _
      orderRestaurant := h.refs.orderRestaurant.keep_child _
      orderCurrency := h.refs.orderCurrency.keep_child _
      orderMoneyCollector := h.refs.orderMoneyCollector.keep_child _
      orderPickupPerson := h.refs.orderPickupPerson.keep_child _
      itemOrder := h.refs.itemOrder.cascade doomed
      messageOrder := h.refs.messageOrder.cascade doomed
      messageUser := h.refs.messageUser.keep_child _ }
  · exact { hemptied.checks with
      foodOrders := fun o ho => h.checks.foodOrders o (mem_keep.1 ho).1 }

theorem deleteMenuItemModifications (h : db.Valid) (doomed : MenuItemModificationRow → Bool) :
    (db.deleteMenuItemModifications doomed).Valid where
  keys := { h.keys with
    menuItemModifications := nodup_keep h.keys.menuItemModifications
    orderItemModifications := by
      have hids := h.keys.orderItemModifications
      rwa [Db.deleteMenuItemModifications, setNull_map OrderItemModificationRow.forget fun _ => rfl] }
  refs := { h.refs with
    modificationMenuItem := h.refs.modificationMenuItem.keep_child _
    snapshotItem := h.refs.snapshotItem.map_child OrderItemModificationRow.forget fun _ => rfl
    snapshotModification := h.refs.snapshotModification.setNull doomed OrderItemModificationRow.forget fun _ => rfl }
  checks := { h.checks with }

theorem cascadeMenuItems (h : db.Valid) {doomed : MenuItemRow → Bool}
    (hfree : db.orderItems.any
      (dangling OrderItemRow.menuItem (gone MenuItemRow.id doomed db.menuItems)) = false) :
    (db.cascadeMenuItems doomed).Valid := by
  have hemptied : (db.deleteMenuItemModifications _).Valid := h.deleteMenuItemModifications
    (dangling MenuItemModificationRow.menuItem (gone MenuItemRow.id doomed db.menuItems))
  refine ⟨?_, ?_, ?_⟩
  · exact { hemptied.keys with
      menuItems := nodup_keep h.keys.menuItems
      menuItemTags := h.keys.menuItemTags.sublist (keep_sublist _ _)
      menuItemAllergens := h.keys.menuItemAllergens.sublist (keep_sublist _ _)
      menuItemAdditives := h.keys.menuItemAdditives.sublist (keep_sublist _ _) }
  · exact { hemptied.refs with
      menuItemRestaurant := h.refs.menuItemRestaurant.keep_child _
      menuItemCategory := h.refs.menuItemCategory.keep_child _
      menuItemImage := h.refs.menuItemImage.keep_child _
      modificationMenuItem := h.refs.modificationMenuItem.cascade doomed
      tagMenuItem := h.refs.tagMenuItem.cascade doomed
      tagTarget := h.refs.tagTarget.keep_child _
      allergenMenuItem := h.refs.allergenMenuItem.cascade doomed
      allergenTarget := h.refs.allergenTarget.keep_child _
      additiveMenuItem := h.refs.additiveMenuItem.cascade doomed
      additiveTarget := h.refs.additiveTarget.keep_child _
      itemAvailabilityMenuItem := h.refs.itemAvailabilityMenuItem.cascade doomed
      itemAvailabilityFilter := h.refs.itemAvailabilityFilter.keep_child _
      -- the one reference that does not cascade forbids the deletion
      itemMenuItem := h.refs.itemMenuItem.restrict hfree }
  · exact { hemptied.checks with
      menuItems := fun m hm => h.checks.menuItems m (mem_keep.1 hm).1 }

theorem deleteMenuItems (h : db.Valid) {doomed : MenuItemRow → Bool} {db' : Db}
    (hrun : db.deleteMenuItems doomed = .ok db') : db'.Valid := by
  rw [Db.deleteMenuItems] at hrun
  split at hrun
  · cases hrun
  · rename_i hfree
    cases hrun
    exact h.cascadeMenuItems (Bool.eq_false_iff.2 hfree)

/-- Clearing a reference of some dishes leaves what is checked about them alone. -/
theorem checks_setNull {κ : Type*} {ref : MenuItemRow → Option κ} {clear : MenuItemRow → MenuItemRow}
    {lost : κ → Bool} {menuItems : List MenuItemRow} (h : ∀ m ∈ menuItems, m.Check)
    (hclear : ∀ m, m.Check → (clear m).Check) : ∀ m ∈ setNull ref clear lost menuItems, m.Check := by
  intro m hm
  obtain ⟨m₀, hm₀, ⟨-, rfl⟩ | ⟨-, rfl⟩⟩ := mem_setNull hm
  · exact hclear m₀ (h m₀ hm₀)
  · exact h m hm₀

theorem deleteMenuCategories (h : db.Valid) (clock : Time) (doomed : MenuCategoryRow → Bool) :
    (db.deleteMenuCategories clock doomed).Valid where
  keys := { h.keys with
    menuCategories := nodup_keep h.keys.menuCategories
    menuItems := by
      have hids := h.keys.menuItems
      rwa [Db.deleteMenuCategories, setNull_map (MenuItemRow.uncategorise clock) fun _ => rfl] }
  refs := { h.refs with
    categoryRestaurant := h.refs.categoryRestaurant.keep_child _
    menuItemRestaurant := h.refs.menuItemRestaurant.map_child (MenuItemRow.uncategorise clock) fun _ => rfl
    menuItemCategory := h.refs.menuItemCategory.setNull doomed (MenuItemRow.uncategorise clock) fun _ => rfl
    menuItemImage := h.refs.menuItemImage.map_child (MenuItemRow.uncategorise clock) fun _ => rfl
    modificationMenuItem := h.refs.modificationMenuItem.map_parent (MenuItemRow.uncategorise clock) fun _ => rfl
    tagMenuItem := h.refs.tagMenuItem.map_parent (MenuItemRow.uncategorise clock) fun _ => rfl
    allergenMenuItem := h.refs.allergenMenuItem.map_parent (MenuItemRow.uncategorise clock) fun _ => rfl
    additiveMenuItem := h.refs.additiveMenuItem.map_parent (MenuItemRow.uncategorise clock) fun _ => rfl
    categoryAvailabilityCategory := h.refs.categoryAvailabilityCategory.cascade doomed
    categoryAvailabilityFilter := h.refs.categoryAvailabilityFilter.keep_child _
    itemAvailabilityMenuItem := h.refs.itemAvailabilityMenuItem.map_parent (MenuItemRow.uncategorise clock) fun _ => rfl
    itemMenuItem := h.refs.itemMenuItem.map_parent (MenuItemRow.uncategorise clock) fun _ => rfl }
  checks := { h.checks with
    menuItems := checks_setNull h.checks.menuItems fun _ hm => hm }

theorem deleteAvailabilityFilters (h : db.Valid) (doomed : AvailabilityFilterRow → Bool) :
    (db.deleteAvailabilityFilters doomed).Valid where
  keys := { h.keys with availabilityFilters := nodup_keep h.keys.availabilityFilters }
  refs := { h.refs with
    filterRestaurant := h.refs.filterRestaurant.keep_child _
    categoryAvailabilityCategory := h.refs.categoryAvailabilityCategory.keep_child _
    categoryAvailabilityFilter := h.refs.categoryAvailabilityFilter.cascade doomed
    itemAvailabilityMenuItem := h.refs.itemAvailabilityMenuItem.keep_child _
    itemAvailabilityFilter := h.refs.itemAvailabilityFilter.cascade doomed }
  checks := { h.checks with }

/-- Restaurants that neither a menu nor an order names can go. -/
theorem dropRestaurants (h : db.Valid) {doomed : RestaurantRow → Bool}
    (hitems : db.menuItems.any
      (dangling MenuItemRow.restaurant (gone RestaurantRow.id doomed db.restaurants)) = false)
    (hcategories : db.menuCategories.any
      (dangling MenuCategoryRow.restaurant (gone RestaurantRow.id doomed db.restaurants)) = false)
    (hfilters : db.availabilityFilters.any
      (dangling AvailabilityFilterRow.restaurant (gone RestaurantRow.id doomed db.restaurants)) =
        false)
    (horders : db.foodOrders.any
      (dangling FoodOrderRow.restaurant (gone RestaurantRow.id doomed db.restaurants)) = false) :
    (db.dropRestaurants doomed).Valid where
  keys := { h.keys with restaurants := nodup_keep h.keys.restaurants }
  refs := { h.refs with
    restaurantLogo := h.refs.restaurantLogo.keep_child _
    restaurantCurrency := h.refs.restaurantCurrency.keep_child _
    contactRestaurant := h.refs.contactRestaurant.cascade doomed
    hoursRestaurant := h.refs.hoursRestaurant.cascade doomed
    filterRestaurant := h.refs.filterRestaurant.restrict hfilters
    categoryRestaurant := h.refs.categoryRestaurant.restrict hcategories
    menuItemRestaurant := h.refs.menuItemRestaurant.restrict hitems
    orderRestaurant := h.refs.orderRestaurant.restrict horders }
  checks := { h.checks with }

theorem deleteRestaurants (h : db.Valid) {clock : Time} {doomed : RestaurantRow → Bool} {db' : Db}
    (hrun : db.deleteRestaurants clock doomed = .ok db') : db'.Valid := by
  simp only [Db.deleteRestaurants] at hrun
  split at hrun
  · cases hrun
  rename_i hfree
  obtain ⟨horders, hdishes⟩ := Bool.or_eq_false_iff.1 (Bool.eq_false_iff.2 hfree)
  cases hrun
  -- the rows that went first leave a valid database in which nothing names the restaurants
  refine (((h.cascadeMenuItems hdishes).deleteMenuCategories clock _).deleteAvailabilityFilters
    _).dropRestaurants ?_ (any_dangling_keep _ _ _) (any_dangling_keep _ _ _) horders
  exact any_dangling_setNull (MenuItemRow.uncategorise clock) (fun _ => rfl)
    (any_dangling_keep _ _ _)

theorem deleteImages (h : db.Valid) (clock : Time) (doomed : ImageRow → Bool) :
    (db.deleteImages clock doomed).Valid where
  keys := { h.keys with
    images := nodup_keep h.keys.images
    restaurants := by
      have hids := h.keys.restaurants
      rwa [Db.deleteImages, setNull_map (RestaurantRow.unpicture clock) fun _ => rfl]
    menuItems := by
      have hids := h.keys.menuItems
      rwa [Db.deleteImages, setNull_map (MenuItemRow.unpicture clock) fun _ => rfl] }
  refs := { h.refs with
    restaurantLogo := h.refs.restaurantLogo.setNull doomed (RestaurantRow.unpicture clock) fun _ => rfl
    restaurantCurrency := h.refs.restaurantCurrency.map_child (RestaurantRow.unpicture clock) fun _ => rfl
    contactRestaurant := h.refs.contactRestaurant.map_parent (RestaurantRow.unpicture clock) fun _ => rfl
    hoursRestaurant := h.refs.hoursRestaurant.map_parent (RestaurantRow.unpicture clock) fun _ => rfl
    filterRestaurant := h.refs.filterRestaurant.map_parent (RestaurantRow.unpicture clock) fun _ => rfl
    categoryRestaurant := h.refs.categoryRestaurant.map_parent (RestaurantRow.unpicture clock) fun _ => rfl
    menuItemRestaurant :=
      (h.refs.menuItemRestaurant.map_parent (RestaurantRow.unpicture clock) fun _ => rfl).map_child
        (MenuItemRow.unpicture clock) fun _ => rfl
    menuItemCategory := h.refs.menuItemCategory.map_child (MenuItemRow.unpicture clock) fun _ => rfl
    menuItemImage := h.refs.menuItemImage.setNull doomed (MenuItemRow.unpicture clock) fun _ => rfl
    modificationMenuItem := h.refs.modificationMenuItem.map_parent (MenuItemRow.unpicture clock) fun _ => rfl
    tagMenuItem := h.refs.tagMenuItem.map_parent (MenuItemRow.unpicture clock) fun _ => rfl
    allergenMenuItem := h.refs.allergenMenuItem.map_parent (MenuItemRow.unpicture clock) fun _ => rfl
    additiveMenuItem := h.refs.additiveMenuItem.map_parent (MenuItemRow.unpicture clock) fun _ => rfl
    itemAvailabilityMenuItem := h.refs.itemAvailabilityMenuItem.map_parent (MenuItemRow.unpicture clock) fun _ => rfl
    orderRestaurant := h.refs.orderRestaurant.map_parent (RestaurantRow.unpicture clock) fun _ => rfl
    itemMenuItem := h.refs.itemMenuItem.map_parent (MenuItemRow.unpicture clock) fun _ => rfl }
  checks := { h.checks with
    menuItems := checks_setNull h.checks.menuItems fun _ hm => hm }

theorem deleteSessions (h : db.Valid) (doomed : SessionRow → Bool) :
    (db.deleteSessions doomed).Valid where
  keys := { h.keys with
    sessions := nodup_keep h.keys.sessions
    sessionOnePerUser := nodup_keep h.keys.sessionOnePerUser }
  refs := { h.refs with sessionUser := h.refs.sessionUser.keep_child _ }
  checks := { h.checks with }

theorem deleteAPITokens (h : db.Valid) (doomed : APITokenRow → Bool) :
    (db.deleteAPITokens doomed).Valid where
  keys := { h.keys with apiTokens := nodup_keep h.keys.apiTokens }
  refs := { h.refs with apiTokenUser := h.refs.apiTokenUser.keep_child _ }
  checks := { h.checks with }

end Valid
end Db
end Doenerstag
