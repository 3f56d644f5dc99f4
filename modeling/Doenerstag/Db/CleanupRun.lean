import Doenerstag.Db.Cleanup

/-!
# A real run of the cleanup, state by state

Which rows a run removes can be read off the state it starts from: an order goes when it is past
the retention, and what goes with it goes; any other row goes when it may go (it is soft-deleted,
or old enough) and every row that refers to it goes. `Db.itemGoes`, …, `Db.imageGoes` say so.

* `unusedMenuItem_afterModifications`, … — what a step selects in the state it finds is exactly
  what goes.
* `cleanup_real` — **a real run never fails**, and its states are those of this module.
-/

namespace Doenerstag

open Tables

namespace Db

variable (cutoff : Time) (db : Db)

/-! ## What goes -/

def itemGoes : OrderItemRow → Bool :=
  dangling OrderItemRow.order (gone FoodOrderRow.id (expiredOrder cutoff) db.foodOrders)

def snapshotGoes : OrderItemModificationRow → Bool :=
  dangling OrderItemModificationRow.orderItem (gone OrderItemRow.id (db.itemGoes cutoff) db.orderItems)

def modificationGoes (m : MenuItemModificationRow) : Bool :=
  m.deletedAt.isSome &&
    !(keep (db.snapshotGoes cutoff) db.orderItemModifications).any fun o =>
      o.modificationID == some m.id

def menuItemGoes (m : MenuItemRow) : Bool :=
  m.deletedAt.isSome &&
    !(keep (db.itemGoes cutoff) db.orderItems).any fun o => o.menuItemID == m.id

def categoryGoes (c : MenuCategoryRow) : Bool :=
  c.deletedAt.isSome &&
    !(keep (db.menuItemGoes cutoff) db.menuItems).any fun m => m.categoryID == some c.id

def restaurantGoes (r : RestaurantRow) : Bool :=
  r.deletedAt.isSome &&
    (!(keep (expiredOrder cutoff) db.foodOrders).any fun o => o.restaurantID == r.id) &&
    (!(keep (db.menuItemGoes cutoff) db.menuItems).any fun m => m.restaurantID == r.id) &&
    !(keep (db.categoryGoes cutoff) db.menuCategories).any fun c => c.restaurantID == r.id

def imageGoes (uploadedBefore : Time) (i : ImageRow) : Bool :=
  i.createdAt < uploadedBefore &&
    (!(keep (db.restaurantGoes cutoff) db.restaurants).any fun r => r.logoImageID == some i.id) &&
    !(keep (db.menuItemGoes cutoff) db.menuItems).any fun m => m.imageID == some i.id

/-! ## The states of a run -/

def afterOrders : Db := db.deleteFoodOrders (expiredOrder cutoff)

def afterModifications : Db :=
  (db.afterOrders cutoff).deleteMenuItemModifications (db.modificationGoes cutoff)

def afterMenuItems : Db := (db.afterModifications cutoff).cascadeMenuItems (db.menuItemGoes cutoff)

variable (clock : String → Time)

def afterCategories : Db :=
  (db.afterMenuItems cutoff).deleteMenuCategories (clock "menu categories") (db.categoryGoes cutoff)

def afterRestaurants : Db :=
  (db.afterCategories cutoff clock).cascadeRestaurants (clock "restaurants")
    (db.restaurantGoes cutoff)

variable (uploadedBefore : Time)

def afterImages : Db :=
  (db.afterRestaurants cutoff clock).deleteImages (clock "images")
    (db.imageGoes cutoff uploadedBefore)

def afterSessions (now : Time) : Db :=
  (db.afterImages cutoff clock uploadedBefore).deleteSessions
    (staleSession (pgTime now) (pgTime (now - idleCleanupWindow)))

/-- The state a run leaves. -/
def afterAPITokens (now : Time) : Db :=
  (db.afterSessions cutoff clock uploadedBefore now).deleteAPITokens (expiredAPIToken (pgTime now))

/-! ## Modifications and dishes

What goes is what no remaining row refers to, so neither a `SET NULL` nor a `RESTRICT` of the
references in question has anything to act on. -/

theorem unusedModification_afterOrders :
    (db.afterOrders cutoff).unusedModification = db.modificationGoes cutoff := rfl

theorem unusedMenuItem_afterModifications :
    (db.afterModifications cutoff).unusedMenuItem = db.menuItemGoes cutoff := rfl

theorem afterModifications_menuItems : (db.afterModifications cutoff).menuItems = db.menuItems := by
  simp [afterModifications, afterOrders]

theorem afterMenuItems_menuCategories :
    (db.afterMenuItems cutoff).menuCategories = db.menuCategories := by
  simp [afterMenuItems, afterModifications, afterOrders]

theorem unusedCategory_afterMenuItems :
    (db.afterMenuItems cutoff).unusedCategory = db.categoryGoes cutoff := rfl

variable {cutoff db} in
theorem modificationID_ne_of_goes {m : MenuItemModificationRow}
    (h : db.modificationGoes cutoff m = true) :
    ∀ o ∈ keep (db.snapshotGoes cutoff) db.orderItemModifications, o.modificationID ≠ some m.id := by
  simp only [modificationGoes, Bool.and_eq_true, Bool.not_eq_true', List.any_eq_false] at h
  exact fun o ho heq => h.2 o ho (by simp [heq])

variable {cutoff db} in
theorem menuItemID_ne_of_goes {m : MenuItemRow} (h : db.menuItemGoes cutoff m = true) :
    ∀ o ∈ keep (db.itemGoes cutoff) db.orderItems, o.menuItemID ≠ m.id := by
  simp only [menuItemGoes, Bool.and_eq_true, Bool.not_eq_true', List.any_eq_false] at h
  exact fun o ho heq => h.2 o ho (by simp [heq])

variable {cutoff db} in
theorem categoryID_ne_of_goes {c : MenuCategoryRow} (h : db.categoryGoes cutoff c = true) :
    ∀ m ∈ keep (db.menuItemGoes cutoff) db.menuItems, m.categoryID ≠ some c.id := by
  simp only [categoryGoes, Bool.and_eq_true, Bool.not_eq_true', List.any_eq_false] at h
  exact fun m hm heq => h.2 m hm (by simp [heq])

theorem afterModifications_orderItemModifications :
    (db.afterModifications cutoff).orderItemModifications =
      keep (db.snapshotGoes cutoff) db.orderItemModifications :=
  setNull_eq_self (dangling_of_unreferenced fun _ _ hgoes => modificationID_ne_of_goes hgoes)

/-- No item that is left is of a dish that goes. -/
theorem orderItems_free (o : OrderItemRow) (ho : o ∈ keep (db.itemGoes cutoff) db.orderItems) :
    dangling OrderItemRow.menuItem
      (gone MenuItemRow.id (db.menuItemGoes cutoff) db.menuItems) o = false :=
  dangling_of_unreferenced (fun _ _ hgoes c hc heq =>
    menuItemID_ne_of_goes hgoes c hc (Option.some.inj heq)) o ho

theorem deleteMenuItems_afterModifications :
    (db.afterModifications cutoff).deleteMenuItems (db.menuItemGoes cutoff) =
      .ok (db.afterMenuItems cutoff) := by
  refine if_neg ?_
  rw [Bool.not_eq_true, List.any_eq_false]
  intro o ho
  rw [Bool.not_eq_true]
  exact db.orderItems_free cutoff o ho

/-! ## Categories and restaurants -/

theorem afterCategories_menuItems :
    (db.afterCategories cutoff clock).menuItems =
      keep (db.menuItemGoes cutoff) db.menuItems := by
  refine setNull_eq_self (dangling_of_unreferenced fun c _ hgoes m hm heq => ?_)
  obtain ⟨id, hid, hkey⟩ := Option.map_eq_some_iff.1 heq
  have hsame : id = c.id := congrArg Prod.snd hkey
  exact categoryID_ne_of_goes hgoes m hm (hsame ▸ hid)

theorem afterCategories_foodOrders :
    (db.afterCategories cutoff clock).foodOrders = keep (expiredOrder cutoff) db.foodOrders := by
  simp [afterCategories, afterMenuItems, afterModifications, afterOrders]

theorem afterCategories_orderItems :
    (db.afterCategories cutoff clock).orderItems = keep (db.itemGoes cutoff) db.orderItems := by
  simp [afterCategories, afterMenuItems, afterModifications, afterOrders, itemGoes]

theorem afterCategories_menuCategories :
    (db.afterCategories cutoff clock).menuCategories =
      keep (db.categoryGoes cutoff) db.menuCategories := by
  simp [afterCategories, afterMenuItems, afterModifications, afterOrders]

theorem afterCategories_restaurants :
    (db.afterCategories cutoff clock).restaurants = db.restaurants := by
  simp [afterCategories, afterMenuItems, afterModifications, afterOrders]

theorem unusedRestaurant_afterCategories :
    (db.afterCategories cutoff clock).unusedRestaurant = db.restaurantGoes cutoff := by
  funext r
  rw [unusedRestaurant, afterCategories_menuItems, afterCategories_foodOrders,
    afterCategories_menuCategories, restaurantGoes]

variable {cutoff db} in
/-- Nothing that is left is at, or on the menu of, a restaurant that goes. -/
theorem restaurantID_ne_of_goes {r : RestaurantRow} (h : db.restaurantGoes cutoff r = true) :
    (∀ o ∈ keep (expiredOrder cutoff) db.foodOrders, o.restaurantID ≠ r.id) ∧
      (∀ m ∈ keep (db.menuItemGoes cutoff) db.menuItems, m.restaurantID ≠ r.id) ∧
      ∀ c ∈ keep (db.categoryGoes cutoff) db.menuCategories, c.restaurantID ≠ r.id := by
  simp only [restaurantGoes, Bool.and_eq_true, Bool.not_eq_true', List.any_eq_false] at h
  obtain ⟨⟨⟨-, horders⟩, hitems⟩, hcategories⟩ := h
  exact ⟨fun o ho heq => horders o ho (by simp [heq]), fun m hm heq => hitems m hm (by simp [heq]),
    fun c hc heq => hcategories c hc (by simp [heq])⟩

/-- The restaurants that go. -/
def lostRestaurants : UUID → Bool := gone RestaurantRow.id (db.restaurantGoes cutoff) db.restaurants

theorem foodOrders_free (o : FoodOrderRow) (ho : o ∈ keep (expiredOrder cutoff) db.foodOrders) :
    dangling FoodOrderRow.restaurant (db.lostRestaurants cutoff) o = false :=
  dangling_of_unreferenced (fun _ _ hgoes c hc heq =>
    (restaurantID_ne_of_goes hgoes).1 c hc (Option.some.inj heq)) o ho

theorem menuItems_free (m : MenuItemRow) (hm : m ∈ keep (db.menuItemGoes cutoff) db.menuItems) :
    dangling MenuItemRow.restaurant (db.lostRestaurants cutoff) m = false :=
  dangling_of_unreferenced (fun _ _ hgoes c hc heq =>
    (restaurantID_ne_of_goes hgoes).2.1 c hc (Option.some.inj heq)) m hm

theorem menuCategories_free (c : MenuCategoryRow)
    (hc : c ∈ keep (db.categoryGoes cutoff) db.menuCategories) :
    dangling MenuCategoryRow.restaurant (db.lostRestaurants cutoff) c = false :=
  dangling_of_unreferenced (fun _ _ hgoes c hc heq =>
    (restaurantID_ne_of_goes hgoes).2.2 c hc (Option.some.inj heq)) c hc

/-- The menu of a restaurant that goes is empty by then, so only its filters, contacts and hours go
with it. -/
theorem afterRestaurants_eq :
    db.afterRestaurants cutoff clock =
      ((db.afterCategories cutoff clock).deleteAvailabilityFilters
        (dangling AvailabilityFilterRow.restaurant (db.lostRestaurants cutoff))).dropRestaurants
        (db.restaurantGoes cutoff) := by
  have hitems : (db.afterCategories cutoff clock).cascadeMenuItems
      (dangling MenuItemRow.restaurant (db.lostRestaurants cutoff)) =
        db.afterCategories cutoff clock :=
    cascadeMenuItems_eq_self _ fun m hm =>
      db.menuItems_free cutoff m (db.afterCategories_menuItems cutoff clock ▸ hm)
  have hcategories : (db.afterCategories cutoff clock).deleteMenuCategories (clock "restaurants")
      (dangling MenuCategoryRow.restaurant (db.lostRestaurants cutoff)) =
        db.afterCategories cutoff clock :=
    deleteMenuCategories_eq_self _ _ fun c hc =>
      db.menuCategories_free cutoff c (db.afterCategories_menuCategories cutoff clock ▸ hc)
  rw [lostRestaurants] at hitems hcategories ⊢
  simp only [afterRestaurants, cascadeRestaurants, afterCategories_restaurants]
  rw [hitems, hcategories]

theorem afterRestaurants_menuItems :
    (db.afterRestaurants cutoff clock).menuItems =
      keep (db.menuItemGoes cutoff) db.menuItems := by
  simp [afterRestaurants_eq, afterCategories_menuItems]

theorem afterRestaurants_restaurants :
    (db.afterRestaurants cutoff clock).restaurants =
      keep (db.restaurantGoes cutoff) db.restaurants := by
  simp [afterRestaurants_eq, afterCategories_restaurants]

theorem afterRestaurants_images : (db.afterRestaurants cutoff clock).images = db.images := by
  simp [afterRestaurants_eq, afterCategories, afterMenuItems, afterModifications, afterOrders]

theorem afterRestaurants_sessions : (db.afterRestaurants cutoff clock).sessions = db.sessions := by
  simp [afterRestaurants_eq, afterCategories, afterMenuItems, afterModifications, afterOrders]

theorem afterRestaurants_apiTokens :
    (db.afterRestaurants cutoff clock).apiTokens = db.apiTokens := by
  simp [afterRestaurants_eq, afterCategories, afterMenuItems, afterModifications, afterOrders]

theorem deleteRestaurants_afterCategories :
    (db.afterCategories cutoff clock).deleteRestaurants (clock "restaurants")
        (db.restaurantGoes cutoff) =
      .ok (db.afterRestaurants cutoff clock) := by
  rw [deleteRestaurants, afterCategories_restaurants, afterCategories_foodOrders,
    afterCategories_menuItems, afterCategories_orderItems]
  refine if_neg ?_
  rw [Bool.not_eq_true, Bool.or_eq_false_iff, List.any_eq_false, List.any_eq_false]
  constructor
  · intro o ho
    rw [Bool.not_eq_true]
    exact db.foodOrders_free cutoff o ho
  · -- no dish is left on their menus, so there is none an item could be of
    intro o ho
    rw [Bool.not_eq_true, dangling_eq_false]
    intro k _
    exact gone_eq_false.2 fun m hm _ => db.menuItems_free cutoff m hm

/-! ## Images -/

theorem unusedImage_afterRestaurants :
    (db.afterRestaurants cutoff clock).unusedImage uploadedBefore =
      db.imageGoes cutoff uploadedBefore := by
  funext i
  rw [unusedImage, afterRestaurants_restaurants, afterRestaurants_menuItems, imageGoes]

variable {cutoff db uploadedBefore} in
theorem imageID_ne_of_goes {i : ImageRow} (h : db.imageGoes cutoff uploadedBefore i = true) :
    (∀ r ∈ keep (db.restaurantGoes cutoff) db.restaurants, r.logoImageID ≠ some i.id) ∧
      ∀ m ∈ keep (db.menuItemGoes cutoff) db.menuItems, m.imageID ≠ some i.id := by
  simp only [imageGoes, Bool.and_eq_true, Bool.not_eq_true', List.any_eq_false] at h
  obtain ⟨⟨-, hlogos⟩, hpictures⟩ := h
  exact ⟨fun r hr heq => hlogos r hr (by simp [heq]),
    fun m hm heq => hpictures m hm (by simp [heq])⟩

theorem afterImages_menuItems :
    (db.afterImages cutoff clock uploadedBefore).menuItems =
      keep (db.menuItemGoes cutoff) db.menuItems := by
  rw [afterImages, deleteImages_menuItems, ← db.afterRestaurants_menuItems cutoff clock]
  refine setNull_eq_self (dangling_of_unreferenced fun i _ hgoes m hm => ?_)
  exact (imageID_ne_of_goes hgoes).2 m (db.afterRestaurants_menuItems cutoff clock ▸ hm)

theorem afterImages_restaurants :
    (db.afterImages cutoff clock uploadedBefore).restaurants =
      keep (db.restaurantGoes cutoff) db.restaurants := by
  rw [afterImages, deleteImages_restaurants, ← db.afterRestaurants_restaurants cutoff clock]
  refine setNull_eq_self (dangling_of_unreferenced fun i _ hgoes r hr => ?_)
  exact (imageID_ne_of_goes hgoes).1 r (db.afterRestaurants_restaurants cutoff clock ▸ hr)

end Db

/-! ## The run -/

/-- The statements run one after the other, each with success, from one state to another. -/
inductive Sweeps (clock : String → Time) :
    List CleanupStatement → Db → List CleanupStep → Db → Prop where
  | nil {db : Db} : Sweeps clock [] db [] db
  | cons {step : CleanupStatement} {rest : List CleanupStatement} {count : Nat}
      {counts : List CleanupStep} {db db' db'' : Db}
      (delete : step.delete (clock step.object) db = .ok (count, db'))
      (others : Sweeps clock rest db' counts db'') :
      Sweeps clock (step :: rest) db ({ object := step.object, count } :: counts) db''

theorem Sweeps.run {clock : String → Time} {steps : List CleanupStatement} {db db' : Db}
    {counts : List CleanupStep} (h : Sweeps clock steps db counts db') (report : CleanupReport) :
    runCleanupSteps clock false steps report db =
      { report := { report with steps := report.steps ++ counts }, db := db', err := none } := by
  induction h generalizing report with
  | nil => simp [runCleanupSteps]
  | cons delete _ ih =>
    simp only [runCleanupSteps, runCleanupStep, Bool.false_eq_true, if_false, delete]
    rw [ih]
    simp

/-- The report of a real run. -/
def Db.removedSteps (retention : Duration) (now : Time) (db : Db) : List CleanupStep :=
  let cutoff := pgTime (now - retention)
  let uploadedBefore := pgTime (now - imageGrace)
  let idleSince := pgTime (now - idleCleanupWindow)
  [ ⟨"orders", db.foodOrders.countP (Db.expiredOrder cutoff)⟩,
    ⟨"menu item modifications", db.menuItemModifications.countP (db.modificationGoes cutoff)⟩,
    ⟨"menu items", db.menuItems.countP (db.menuItemGoes cutoff)⟩,
    ⟨"menu categories", db.menuCategories.countP (db.categoryGoes cutoff)⟩,
    ⟨"restaurants", db.restaurants.countP (db.restaurantGoes cutoff)⟩,
    ⟨"images", db.images.countP (db.imageGoes cutoff uploadedBefore)⟩,
    ⟨"sessions", db.sessions.countP (Db.staleSession (pgTime now) idleSince)⟩,
    ⟨"api tokens", db.apiTokens.countP (Db.expiredAPIToken (pgTime now))⟩ ]

section Statements

variable (cutoff : Time) (clock : String → Time) (uploadedBefore now : Time) (db : Db)

theorem ordersStep_delete :
    (ordersStep cutoff).delete (clock "orders") db =
      .ok (db.foodOrders.countP (Db.expiredOrder cutoff), db.afterOrders cutoff) := rfl

theorem modificationsStep_delete :
    modificationsStep.delete (clock "menu item modifications") (db.afterOrders cutoff) =
      .ok (db.menuItemModifications.countP (db.modificationGoes cutoff),
        db.afterModifications cutoff) := rfl

theorem menuItemsStep_delete :
    menuItemsStep.delete (clock "menu items") (db.afterModifications cutoff) =
      .ok (db.menuItems.countP (db.menuItemGoes cutoff), db.afterMenuItems cutoff) := by
  simp only [menuItemsStep, Db.unusedMenuItem_afterModifications,
    Db.deleteMenuItems_afterModifications, Db.afterModifications_menuItems, Except.map]

theorem categoriesStep_delete :
    categoriesStep.delete (clock "menu categories") (db.afterMenuItems cutoff) =
      .ok (db.menuCategories.countP (db.categoryGoes cutoff), db.afterCategories cutoff clock) := by
  simp only [categoriesStep, Db.unusedCategory_afterMenuItems, Db.afterMenuItems_menuCategories,
    Db.afterCategories]

theorem restaurantsStep_delete :
    restaurantsStep.delete (clock "restaurants") (db.afterCategories cutoff clock) =
      .ok (db.restaurants.countP (db.restaurantGoes cutoff), db.afterRestaurants cutoff clock) := by
  simp only [restaurantsStep, Db.unusedRestaurant_afterCategories,
    Db.deleteRestaurants_afterCategories, Db.afterCategories_restaurants, Except.map]

theorem imagesStep_delete :
    (imagesStep uploadedBefore).delete (clock "images") (db.afterRestaurants cutoff clock) =
      .ok (db.images.countP (db.imageGoes cutoff uploadedBefore),
        db.afterImages cutoff clock uploadedBefore) := by
  simp only [imagesStep, Db.unusedImage_afterRestaurants, Db.afterRestaurants_images,
    Db.afterImages]

theorem sessionsStep_delete :
    (sessionsStep (pgTime now) (pgTime (now - idleCleanupWindow))).delete (clock "sessions")
        (db.afterImages cutoff clock uploadedBefore) =
      .ok (db.sessions.countP (Db.staleSession (pgTime now) (pgTime (now - idleCleanupWindow))),
        db.afterSessions cutoff clock uploadedBefore now) := by
  simp only [sessionsStep, Db.afterSessions, Db.afterImages, Db.deleteImages_sessions,
    Db.afterRestaurants_sessions]

theorem apiTokensStep_delete :
    (apiTokensStep (pgTime now)).delete (clock "api tokens")
        (db.afterSessions cutoff clock uploadedBefore now) =
      .ok (db.apiTokens.countP (Db.expiredAPIToken (pgTime now)),
        db.afterAPITokens cutoff clock uploadedBefore now) := by
  simp only [apiTokensStep, Db.afterAPITokens, Db.afterSessions, Db.afterImages,
    Db.deleteSessions_apiTokens, Db.deleteImages_apiTokens, Db.afterRestaurants_apiTokens]

end Statements

/-- **A real run never fails**, and removes exactly what goes. -/
theorem cleanup_real (clock : String → Time) (retention : Duration) (now : Time) (db : Db) :
    cleanup clock retention now false db =
      { report := { steps := db.removedSteps retention now, dryRun := false }
        db := db.afterAPITokens (pgTime (now - retention)) clock (pgTime (now - imageGrace)) now
        err := none } := by
  set cutoff := pgTime (now - retention)
  set uploadedBefore := pgTime (now - imageGrace)
  have hsweeps : Sweeps clock (cleanupSteps retention now) db (db.removedSteps retention now)
      (db.afterAPITokens cutoff clock uploadedBefore now) := by
    refine .cons (ordersStep_delete cutoff clock db) ?_
    refine .cons (modificationsStep_delete cutoff clock db) ?_
    refine .cons (menuItemsStep_delete cutoff clock db) ?_
    refine .cons (categoriesStep_delete cutoff clock db) ?_
    refine .cons (restaurantsStep_delete cutoff clock db) ?_
    refine .cons (imagesStep_delete cutoff clock uploadedBefore db) ?_
    refine .cons (sessionsStep_delete cutoff clock uploadedBefore now db) ?_
    exact .cons (apiTokensStep_delete cutoff clock uploadedBefore now db) .nil
  exact hsweeps.run _

/-! ## An example -/

/-- An order from the year 1970 is the last to hold a dish that has left the menu. -/
def heldByOldOrder : Db :=
  { Db.empty with
    appUsers := [{ id := ⟨1⟩, name := "anna", displayName := none, passwordHash := "*"
                   email := none, isAdmin := false, lastLoginAt := none }]
    currencies := [{ code := "EUR" }]
    restaurants := [{ id := ⟨2⟩, name := "Bistro", logoImageID := none, currencyCode := "EUR"
                      minOrderValueCents := none, deliveryFeeCents := none, deletedAt := none
                      updatedAt := 0 }]
    menuItems := [{ id := ⟨3⟩, restaurantID := ⟨2⟩, categoryID := none, externalID := none
                    name := "Kebab", description := none, imageID := none, priceCents := 500
                    available := true, deletedAt := some 5000, createdAt := 0, updatedAt := 5000
                    updatedBy := none }]
    foodOrders := [{ id := ⟨4⟩, creatorID := ⟨1⟩, restaurantID := ⟨2⟩, fulfilment := "pickup"
                     fulfilmentAt := 2000, deadlineAt := 1000, moneyCollectorID := none
                     pickupPersonID := none, moneyCollectorDrawn := false
                     pickupPersonDrawn := false, jobsDrawn := false, currencyCode := "EUR"
                     minOrderValueCents := none, deliveryFeeCents := none, createdAt := 0
                     updatedAt := 0, updatedBy := none }]
    orderItems := [{ id := ⟨5⟩, orderID := ⟨4⟩, userID := ⟨1⟩, menuItemID := ⟨3⟩, quantity := 1
                     itemName := "Kebab", unitPriceCents := 500, note := none, paid := true
                     createdAt := 0, updatedAt := 0, updatedBy := none }] }

theorem heldByOldOrder_valid : heldByOldOrder.Valid where
  keys := by constructor <;> decide +kernel
  refs := by constructor <;> decide +kernel
  checks := by constructor <;> decide +kernel

end Doenerstag
