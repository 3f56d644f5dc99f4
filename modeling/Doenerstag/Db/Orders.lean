import Doenerstag.Db.OrderItems

/-!
# Orders (`internal/db/orders.go`)

`CreateOrder` and `UpdateOrder`, each a single statement on the pool followed by the read-back, and
the lookups the handlers of an order make.
-/

namespace Doenerstag

open ReadCommitted

@[simps] def Db.setFoodOrders (db : Db) (rows : List FoodOrderRow) : Db :=
  { db with foodOrders := rows }

/-! ## Lookups -/

section Lookups

variable {ℓ : Type} (l : ℓ)

def orderByID (id : UUID) : DbProgram ℓ Order :=
  (queryRow l fun db => db.orderByID id).mapError scanError

def countOrderItems (orderID : UUID) : DbProgram ℓ Int64 :=
  (queryRow l fun db => some (db.countOrderItems orderID)).mapError otherError

def countMessages (orderID : UUID) : DbProgram ℓ Int64 :=
  (queryRow l fun db => some (db.countMessages orderID)).mapError otherError

def restaurantExists (id : UUID) : DbProgram ℓ Bool :=
  (queryRow l fun db => some (db.restaurantExists id)).mapError otherError

def userByID (id : UUID) : DbProgram ℓ AppUserRow :=
  (queryRow l fun db => db.userByID id).mapError scanError

variable {L : ℓ → Prop} {l}

theorem orderByID_reads (hl : L l) (id : UUID) : (orderByID l id).Reads L :=
  (queryRow_reads hl).mapError _

theorem countOrderItems_reads (hl : L l) (orderID : UUID) : (countOrderItems l orderID).Reads L :=
  (queryRow_reads hl).mapError _

theorem countMessages_reads (hl : L l) (orderID : UUID) : (countMessages l orderID).Reads L :=
  (queryRow_reads hl).mapError _

theorem restaurantExists_reads (hl : L l) (id : UUID) : (restaurantExists l id).Reads L :=
  (queryRow_reads hl).mapError _

theorem userByID_reads (hl : L l) (id : UUID) : (userByID l id).Reads L :=
  (queryRow_reads hl).mapError _

end Lookups

/-! ## Creating an order -/

structure NewOrder where
  creatorID : UUID
  restaurantID : UUID
  fulfilment : String
  fulfilmentAt : Time
  deadlineAt : Time
  moneyCollectorID : Option UUID
  pickupPersonID : Option UUID
  deriving DecidableEq, Repr

/-- The row of a new order, with the restaurant's money fields. -/
def NewOrder.row (order : NewOrder) (id : UUID) (r : RestaurantRow) (now : Time) : FoodOrderRow :=
  { id := id
    creatorID := order.creatorID
    restaurantID := r.id
    fulfilment := order.fulfilment
    fulfilmentAt := pgTime order.fulfilmentAt
    deadlineAt := pgTime order.deadlineAt
    moneyCollectorID := order.moneyCollectorID
    pickupPersonID := order.pickupPersonID
    moneyCollectorDrawn := false
    pickupPersonDrawn := false
    jobsDrawn := false
    currencyCode := r.currencyCode
    minOrderValueCents := r.minOrderValueCents
    deliveryFeeCents := r.deliveryFeeCents
    createdAt := pgTime now
    updatedAt := pgTime now
    updatedBy := some order.creatorID }

namespace Db

/-- Every account and the currency that an order names are there. -/
def knowsReferences (db : Db) (o : FoodOrderRow) : Bool :=
  let known (id : UUID) := (db.userByID id).isSome
  known o.creatorID && o.moneyCollectorID.all known && o.pickupPersonID.all known &&
    o.updatedBy.all known && (db.restaurants.any fun r => r.id == o.restaurantID) &&
    db.currencies.any fun c => c.code == o.currencyCode

/-- `INSERT INTO food_order … SELECT … FROM restaurant`: without the restaurant, no row. -/
def insertFoodOrder (id : UUID) (order : NewOrder) (now : Time) (db : Db) :
    Except PgError (Db × Nat) :=
  match db.restaurants.find? fun r => r.id == order.restaurantID && r.deletedAt.isNone with
  | none => .ok (db, 0)
  | some r =>
    let row := order.row id r now
    if ¬ row.Check then .error .checkViolation
    else if (db.foodOrder id).isSome then .error .uniqueViolation
    else if !db.knowsReferences row then .error .foreignKeyViolation
    else .ok (db.setFoodOrders (db.foodOrders ++ [row]), 1)

end Db

inductive CreateOrderStmt where
  | insert
  | readBack
  deriving DecidableEq, Repr

def createOrder (id : UUID) (order : NewOrder) : DbProgram CreateOrderStmt Order := do
  let _ ← (exec .insert (Db.insertFoodOrder id order)).mapError otherError
  orderByID .readBack id

/-! ## Changing an order -/

/-- A field that is absent stays as it is. A person who is present and `none` is cleared. -/
structure OrderUpdate where
  restaurantID : Option UUID
  fulfilment : Option String
  fulfilmentAt : Option Time
  deadlineAt : Option Time
  moneyCollectorID : Option (Option UUID)
  pickupPersonID : Option (Option UUID)
  deriving DecidableEq, Repr

def OrderUpdate.empty : OrderUpdate :=
  { restaurantID := none, fulfilment := none, fulfilmentAt := none, deadlineAt := none
    moneyCollectorID := none, pickupPersonID := none }

/-- The columns of `UPDATE food_order SET …`. A new restaurant brings its money fields along; `r`
is its row, without which the currency would be null. -/
def OrderUpdate.apply (change : OrderUpdate) (r : Option RestaurantRow) (o : FoodOrderRow) :
    FoodOrderRow :=
  { o with
    restaurantID := change.restaurantID.getD o.restaurantID
    currencyCode := (r.map RestaurantRow.currencyCode).getD o.currencyCode
    minOrderValueCents := (r.map RestaurantRow.minOrderValueCents).getD o.minOrderValueCents
    deliveryFeeCents := (r.map RestaurantRow.deliveryFeeCents).getD o.deliveryFeeCents
    fulfilment := change.fulfilment.getD o.fulfilment
    fulfilmentAt := (change.fulfilmentAt.map pgTime).getD o.fulfilmentAt
    deadlineAt := (change.deadlineAt.map pgTime).getD o.deadlineAt
    moneyCollectorID := change.moneyCollectorID.getD o.moneyCollectorID
    pickupPersonID := change.pickupPersonID.getD o.pickupPersonID }

/-- The trigger `set_updated_at`, and the actor. -/
def FoodOrderRow.stamp (actor : UUID) (now : Time) (old new : FoodOrderRow) : FoodOrderRow :=
  { new with
    updatedAt := if new = old then old.updatedAt else pgTime now
    updatedBy := some actor }

namespace Db

/-- The new row of an order, or why the database refuses it. -/
def changedFoodOrder (db : Db) (actor : UUID) (change : OrderUpdate) (now : Time)
    (o : FoodOrderRow) : Except PgError FoodOrderRow :=
  let r := change.restaurantID.bind fun id => db.restaurants.find? fun r => r.id == id
  let new := o.stamp actor now (change.apply r o)
  if change.restaurantID.isSome && r.isNone then .error .notNullViolation
  else if ¬ new.Check then .error .checkViolation
  else if !db.knowsReferences new then .error .foreignKeyViolation
  else .ok new

theorem changedFoodOrder_eq_ok {db : Db} {actor : UUID} {change : OrderUpdate} {now : Time}
    {o new : FoodOrderRow} (h : db.changedFoodOrder actor change now o = .ok new) :
    new.id = o.id ∧ new.restaurantID = change.restaurantID.getD o.restaurantID ∧
      db.knowsReferences new = true := by
  unfold changedFoodOrder at h
  simp only at h
  split_ifs at h with _ _ hknown
  cases h
  exact ⟨rfl, rfl, by simpa using hknown⟩

/-- `UPDATE food_order … WHERE id = … AND (NOT … OR NOT EXISTS (…))`: a new restaurant only for an
order without items. -/
def updateFoodOrder (id actor : UUID) (change : OrderUpdate) (now : Time) (db : Db) :
    Except PgError (Db × Nat) :=
  match db.foodOrder id with
  | none => .ok (db, 0)
  | some o =>
    if change.restaurantID.isSome && (db.orderItems.any fun i => i.orderID == id) then .ok (db, 0)
    else (db.changedFoodOrder actor change now o).map fun new =>
      (db.setFoodOrders (db.foodOrders.map fun p => if p.id == id then new else p), 1)

end Db

inductive UpdateOrderStmt where
  | update
  | lookup
  | readBack
  deriving DecidableEq, Repr

/-- A reference to a row that does not exist is `ErrUnknownReference`. -/
def updateOrderError (e : StmtError PgError) : DbError :=
  match e with
  | .rejected .foreignKeyViolation => .unknownReference
  | _ => .failure

/-- Whether a new restaurant was refused to an order that is there. -/
def restaurantLocked (id : UUID) (change : OrderUpdate) : DbProgram UpdateOrderStmt Bool :=
  if change.restaurantID.isSome then (orderByID .lookup id).succeeds else pure false

def updateOrder (id actor : UUID) (change : OrderUpdate) : DbProgram UpdateOrderStmt Order := do
  if change = .empty then
    orderByID .readBack id
  else
    let rows ← (exec .update (Db.updateFoodOrder id actor change)).mapError updateOrderError
    if rows = 0 then
      let locked ← restaurantLocked id change
      throw (if locked then .restaurantLocked else .notFound)
    else
      orderByID .readBack id

theorem restaurantLocked_reads (id : UUID) (change : OrderUpdate) :
    (restaurantLocked id change).Reads (· = .lookup) := by
  unfold restaurantLocked
  split_ifs
  · exact (orderByID_reads (L := (· = UpdateOrderStmt.lookup)) rfl id).succeeds
  · exact .done _

/-- `UpdateOrder` holds if its one write does. -/
theorem updateOrder_holds {I : World Db Time → Prop}
    {R G : UpdateOrderStmt → World Db Time → World Db Time → Prop} {id actor : UUID}
    {change : OrderUpdate} {w : World Db Time}
    (hwrite : (exec .update (Db.updateFoodOrder id actor change)).Holds I R G
      (Prog.Ends fun _ _ => True) w)
    (hbeside : ∀ l w, l ≠ .update → I w → G l w w) :
    (updateOrder id actor change).Holds I R G (Prog.Ends fun _ _ => True) w := by
  have hreads : ∀ {α : Type} {p : DbProgram UpdateOrderStmt α} (w : World Db Time),
      p.Reads (· ≠ .update) → p.Holds I R G (Prog.Ends fun _ _ => True) w :=
    fun w h => (h.holds hbeside w).mono fun _ _ _ _ _ => trivial
  unfold updateOrder
  split_ifs
  · exact hreads w (orderByID_reads (by decide) id)
  · refine Prog.holds_seq (Prog.ends_mapError hwrite) fun rows w _ => hreads w ?_
    split_ifs
    · refine .bind ((restaurantLocked_reads id change).mono ?_) fun _ => .fail _
      rintro l rfl
      decide
    · exact orderByID_reads (by decide) id

/-! ## A small database -/

/-- Two restaurants, a dish of the first with a modification, and an order at the first whose
deadline is 100 microseconds after the epoch. -/
def lunch : Db :=
  { Db.empty with
    appUsers := [{ id := ⟨1⟩, name := "anna", displayName := none, passwordHash := "*"
                   email := none, isAdmin := false, lastLoginAt := none }]
    currencies := [{ code := "EUR" }]
    restaurants := [
      { id := ⟨2⟩, name := "Bistro", logoImageID := none, currencyCode := "EUR"
        minOrderValueCents := none, deliveryFeeCents := none, deletedAt := none, updatedAt := 0 },
      { id := ⟨3⟩, name := "Trattoria", logoImageID := none, currencyCode := "EUR"
        minOrderValueCents := none, deliveryFeeCents := none, deletedAt := none, updatedAt := 0 }]
    menuItems := [{ id := ⟨4⟩, restaurantID := ⟨2⟩, categoryID := none, externalID := none
                    name := "Kebab", description := none, imageID := none, priceCents := 500
                    available := true, deletedAt := none, createdAt := 0, updatedAt := 0
                    updatedBy := none }]
    menuItemModifications := [{ id := ⟨5⟩, menuItemID := ⟨4⟩, name := "extra cheese"
                                priceDeltaCents := 100, sortOrder := 0, deletedAt := none }]
    foodOrders := [{ id := ⟨6⟩, creatorID := ⟨1⟩, restaurantID := ⟨2⟩, fulfilment := "pickup"
                     fulfilmentAt := 200000, deadlineAt := 100000, moneyCollectorID := none
                     pickupPersonID := none, moneyCollectorDrawn := false
                     pickupPersonDrawn := false, jobsDrawn := false, currencyCode := "EUR"
                     minOrderValueCents := none, deliveryFeeCents := none, createdAt := 0
                     updatedAt := 0, updatedBy := none }] }

theorem lunch_valid : lunch.Valid where
  keys := by constructor <;> decide +kernel
  refs := by constructor <;> decide +kernel
  checks := by constructor <;> decide +kernel

end Doenerstag
