import Doenerstag.Db.Delete

/-!
# The cleanup (`internal/db/cleanup.go`)

Eight `DELETE`s in a fixed order, each its own transaction, and a dry run that counts with the same
predicates instead. A predicate is a function of the state its statement finds.

* `Db.expiredOrder`, `Db.unusedModification`, … — the `WHERE` clauses.
* `cleanupSteps` — the statements, in order.
* `cleanup` — a run of them, dry or real.
-/

namespace Doenerstag

open Tables

def idleCleanupWindow : Duration := 30 * 24 * Time.hour
def imageGrace : Duration := 24 * Time.hour

/-! ## What each statement selects -/

namespace Db

variable (db : Db)

def expiredOrder (cutoff : Time) (o : FoodOrderRow) : Bool := o.deadlineAt < cutoff

def unusedModification (m : MenuItemModificationRow) : Bool :=
  m.deletedAt.isSome && !db.orderItemModifications.any fun o => o.modificationID == some m.id

def unusedMenuItem (m : MenuItemRow) : Bool :=
  m.deletedAt.isSome && !db.orderItems.any fun o => o.menuItemID == m.id

def unusedCategory (c : MenuCategoryRow) : Bool :=
  c.deletedAt.isSome && !db.menuItems.any fun m => m.categoryID == some c.id

def unusedRestaurant (r : RestaurantRow) : Bool :=
  r.deletedAt.isSome && (!db.foodOrders.any fun o => o.restaurantID == r.id) &&
    (!db.menuItems.any fun m => m.restaurantID == r.id) &&
    !db.menuCategories.any fun c => c.restaurantID == r.id

def unusedImage (cutoff : Time) (i : ImageRow) : Bool :=
  i.createdAt < cutoff && (!db.restaurants.any fun r => r.logoImageID == some i.id) &&
    !db.menuItems.any fun m => m.imageID == some i.id

def staleSession (now idleSince : Time) (s : SessionRow) : Bool :=
  s.absoluteExpires ≤ now || s.lastSeenAt < idleSince

def expiredAPIToken (now : Time) (t : APITokenRow) : Bool :=
  match t.expiresAt with
  | some expires => expires ≤ now
  | none => false

end Db

/-! ## The steps -/

/-- One statement of the cleanup in its two forms: the count, and the deletion at the database's
clock, which answers the rows affected. -/
structure CleanupStatement where
  object : String
  count : Db → Nat
  delete : Time → Db → Except PgError (Nat × Db)

/-- `db.CleanupStep`: what was removed, and how many of it. -/
structure CleanupStep where
  object : String
  count : Nat
  deriving DecidableEq, Repr

structure CleanupReport where
  steps : List CleanupStep
  dryRun : Bool
  deriving DecidableEq, Repr

def CleanupReport.total (r : CleanupReport) : Nat :=
  r.steps.foldl (fun total step => total + step.count) 0

/-- 1. Orders past the retention period, with their items and modification snapshots. -/
def ordersStep (cutoff : Time) : CleanupStatement :=
  { object := "orders"
    count := fun db => db.foodOrders.countP (Db.expiredOrder cutoff)
    delete := fun _ db =>
      .ok (db.foodOrders.countP (Db.expiredOrder cutoff),
        db.deleteFoodOrders (Db.expiredOrder cutoff)) }

/-- 2. Soft-deleted modifications nothing points at any more. -/
def modificationsStep : CleanupStatement :=
  { object := "menu item modifications"
    count := fun db => db.menuItemModifications.countP db.unusedModification
    delete := fun _ db =>
      .ok (db.menuItemModifications.countP db.unusedModification,
        db.deleteMenuItemModifications db.unusedModification) }

/-- 3. Soft-deleted menu items no order item references. -/
def menuItemsStep : CleanupStatement :=
  { object := "menu items"
    count := fun db => db.menuItems.countP db.unusedMenuItem
    delete := fun _ db =>
      (db.deleteMenuItems db.unusedMenuItem).map (db.menuItems.countP db.unusedMenuItem, ·) }

/-- 4a. Soft-deleted categories nothing references. -/
def categoriesStep : CleanupStatement :=
  { object := "menu categories"
    count := fun db => db.menuCategories.countP db.unusedCategory
    delete := fun clock db =>
      .ok (db.menuCategories.countP db.unusedCategory,
        db.deleteMenuCategories clock db.unusedCategory) }

/-- 4b. Soft-deleted restaurants no order and no menu row references. -/
def restaurantsStep : CleanupStatement :=
  { object := "restaurants"
    count := fun db => db.restaurants.countP db.unusedRestaurant
    delete := fun clock db =>
      (db.deleteRestaurants clock db.unusedRestaurant).map
        (db.restaurants.countP db.unusedRestaurant, ·) }

/-- 5. Images no restaurant and no menu item points at, uploaded more than a day ago. -/
def imagesStep (uploadedBefore : Time) : CleanupStatement :=
  { object := "images"
    count := fun db => db.images.countP (db.unusedImage uploadedBefore)
    delete := fun clock db =>
      .ok (db.images.countP (db.unusedImage uploadedBefore),
        db.deleteImages clock (db.unusedImage uploadedBefore)) }

/-- 6a. Sessions past their absolute or idle expiry. -/
def sessionsStep (now idleSince : Time) : CleanupStatement :=
  { object := "sessions"
    count := fun db => db.sessions.countP (Db.staleSession now idleSince)
    delete := fun _ db =>
      .ok (db.sessions.countP (Db.staleSession now idleSince),
        db.deleteSessions (Db.staleSession now idleSince)) }

/-- 6b. API tokens past their expiry. -/
def apiTokensStep (now : Time) : CleanupStatement :=
  { object := "api tokens"
    count := fun db => db.apiTokens.countP (Db.expiredAPIToken now)
    delete := fun _ db =>
      .ok (db.apiTokens.countP (Db.expiredAPIToken now),
        db.deleteAPITokens (Db.expiredAPIToken now)) }

/-- The steps of a run with this retention at `now`. -/
def cleanupSteps (retention : Duration) (now : Time) : List CleanupStatement :=
  [ ordersStep (pgTime (now - retention)), modificationsStep, menuItemsStep, categoriesStep,
    restaurantsStep, imagesStep (pgTime (now - imageGrace)),
    sessionsStep (pgTime now) (pgTime (now - idleCleanupWindow)), apiTokensStep (pgTime now) ]

/-! ## A run -/

/-- What a run comes to: its report, the state it leaves, and the error it stopped at. -/
structure CleanupRun where
  report : CleanupReport
  db : Db
  err : Option PgError
  deriving DecidableEq, Repr

/-- A dry run counts and rolls back; a real one deletes and commits. -/
def runCleanupStep (clock : Time) (step : CleanupStatement) (dryRun : Bool) (db : Db) :
    Except PgError (Nat × Db) :=
  if dryRun then
    .ok (step.count db, db)
  else
    step.delete clock db

/-- The loop over the steps. Each is committed by itself, so what an earlier one removed stays
removed when a later one fails. -/
def runCleanupSteps (clock : String → Time) (dryRun : Bool) :
    List CleanupStatement → CleanupReport → Db → CleanupRun
  | [], report, db => { report, db, err := none }
  | step :: rest, report, db =>
    match runCleanupStep (clock step.object) step dryRun db with
    | .error e => { report, db, err := some e }
    | .ok (count, db') =>
      runCleanupSteps clock dryRun rest
        { report with steps := report.steps ++ [{ object := step.object, count }] } db'

/-- `db.Cleanup`; `clock` is the database's clock at each step. -/
def cleanup (clock : String → Time) (retention : Duration) (now : Time) (dryRun : Bool) (db : Db) :
    CleanupRun :=
  runCleanupSteps clock dryRun (cleanupSteps retention now) { steps := [], dryRun } db

end Doenerstag
