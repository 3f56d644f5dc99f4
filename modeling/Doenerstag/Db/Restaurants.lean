import Doenerstag.Db.Orders

/-!
# Restaurants (`internal/db/restaurants.go`)

`SoftDeleteRestaurant` is one statement on the pool, and `CreateOrder` another. Each looks at what is
committed when it begins and writes when it commits; here the two moments are told apart, because
the one deletes what the other refers to.

* `softDeleteRestaurant`, `createOrderSeen` — the two, with their snapshots.
* `createOrderSeen_run` — with nobody in between, this is `createOrder`.
-/

namespace Doenerstag

open ReadCommitted

@[simps] def Db.setRestaurants (db : Db) (rows : List RestaurantRow) : Db :=
  { db with restaurants := rows }

/-- What `UPDATE restaurant SET deleted_at = …` leaves of a row, with the trigger. -/
def RestaurantRow.softDelete (now : Time) (r : RestaurantRow) : RestaurantRow :=
  { r with deletedAt := some (pgTime now), updatedAt := pgTime now }

namespace Db

def restaurantByID (db : Db) (id : UUID) : Option RestaurantRow :=
  db.restaurants.find? fun r => r.id == id && r.deletedAt.isNone

/-- An order refers to the restaurant. -/
def restaurantInUse (db : Db) (id : UUID) : Bool := db.foodOrders.any fun o => o.restaurantID == id

/-! ## Deleting a restaurant -/

/-- `UPDATE restaurant SET deleted_at = … WHERE id = … AND deleted_at IS NULL AND NOT EXISTS (…)`.
Whether an order refers to it is settled on the rows seen; the row itself is looked at again when it
is written. -/
def softDeleteRestaurant (id actor : UUID) (now : Time) (seen db : Db) :
    Except PgError (Db × Nat) :=
  let doomed (r : RestaurantRow) := r.id == id && r.deletedAt.isNone
  if !seen.restaurantExists id || seen.restaurantInUse id || !db.restaurants.any doomed then
    .ok (db, 0)
  else if (db.userByID actor).isNone then .error .foreignKeyViolation
  else .ok (db.setRestaurants
    (db.restaurants.map fun r => if doomed r then RestaurantRow.softDelete now r else r),
    db.restaurants.countP doomed)

end Db

def restaurantByID {ℓ : Type} (l : ℓ) (id : UUID) : DbProgram ℓ RestaurantRow :=
  (queryRow l fun db => db.restaurantByID id).mapError scanError

inductive SoftDeleteStmt where
  | seen
  | commit
  /-- the second query, when nothing was updated -/
  | inUse
  deriving DecidableEq, Repr

def softDeleteRestaurant (id actor : UUID) : DbProgram SoftDeleteStmt Unit := do
  let rows ← (execSeen .seen .commit (Db.softDeleteRestaurant id actor)).mapError otherError
  if rows = 1 then
    pure ()
  else
    let inUse ← (queryRow .inUse fun db => some (db.restaurantInUse id)).mapError otherError
    throw (if inUse then .stillReferenced else .notFound)

/-! ## Creating an order, with its snapshot -/

/-- `insertFoodOrder`, the restaurant as it was seen. -/
def Db.insertFoodOrderSeen (id : UUID) (order : NewOrder) (now : Time) (seen db : Db) :
    Except PgError (Db × Nat) :=
  match seen.restaurants.find? fun r => r.id == order.restaurantID && r.deletedAt.isNone with
  | none => .ok (db, 0)
  | some r =>
    let row := order.row id r now
    if ¬ row.Check then .error .checkViolation
    else if (db.foodOrder id).isSome then .error .uniqueViolation
    else if !db.knowsReferences row then .error .foreignKeyViolation
    else .ok (db.setFoodOrders (db.foodOrders ++ [row]), 1)

theorem Db.insertFoodOrderSeen_self (id : UUID) (order : NewOrder) (now : Time) (db : Db) :
    db.insertFoodOrderSeen id order now db = db.insertFoodOrder id order now := rfl

inductive CreateOrderSeenStmt where
  | seen
  | commit
  | readBack
  deriving DecidableEq, Repr

/-- `CreateOrder`, its insert in two steps. -/
def createOrderSeen (id : UUID) (order : NewOrder) : DbProgram CreateOrderSeenStmt Order := do
  let _ ← (execSeen .seen .commit (Db.insertFoodOrderSeen id order)).mapError otherError
  orderByID .readBack id

/-- The step of `createOrder` that a step of this is a part of. -/
def CreateOrderSeenStmt.whole : CreateOrderStmt → CreateOrderSeenStmt
  | .insert => .commit
  | .readBack => .readBack

theorem createOrderSeen_run {ω : CreateOrderSeenStmt → Outcome} (hseen : ω .seen ≠ .failure)
    (id : UUID) (order : NewOrder) (w : World Db Time) :
    (createOrderSeen id order).run ω w =
      (createOrder id order).run (fun l => ω (CreateOrderSeenStmt.whole l)) w := by
  unfold createOrderSeen createOrder
  rw [Prog.run_bind, Prog.run_bind, Prog.run_mapError, Prog.run_mapError, execSeen_run hseen]
  simp only [exec, run_write, orderByID, queryRow, Prog.run_mapError, run_read]
  rfl

end Doenerstag
