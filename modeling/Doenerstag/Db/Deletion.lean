import Doenerstag.Db.Orders
import Doenerstag.Db.Sessions
import Doenerstag.Lib.Failure
import Mathlib.Data.List.Dedup

/-!
# Deleting an account (`internal/db/deletion.go`, `participants.go`)

`ImpactOfDeleting` counts, in one query, what `DeleteAccount` then does in a transaction of four
statements. The last of them deletes the account, and the foreign keys do the rest: what is left of
it in an order goes to the placeholder or becomes nobody.

* `Db.deletionImpact`, `Db.isParticipant` — the two queries.
* `Db.deleteAppUser` — the deletion of the row, with the trigger that protects two accounts and the
  actions of the foreign keys.
-/

namespace Doenerstag

open ReadCommitted Prog Tables

/-! ## What is counted -/

structure DeletionImpact where
  activeOrders : Nat
  activeItems : Nat
  expiredItems : Nat
  createdActiveOrders : Nat
  activeJobs : Nat
  deriving DecidableEq, Repr

namespace Db

variable (db : Db)

/-- The order of an item is still open, or it is not. -/
def itemOpen (stamp : Time) (i : OrderItemRow) : Bool :=
  (db.foodOrder i.orderID).any fun o => pgTime stamp < o.deadlineAt

def itemExpired (stamp : Time) (i : OrderItemRow) : Bool :=
  (db.foodOrder i.orderID).any fun o => o.deadlineAt ≤ pgTime stamp

/-- `order_item i ON i.order_id = o.id AND i.user_id = …`, joined to the left of an order. -/
def leftJoinOwnItems (userID : UUID) (o : FoodOrderRow) : List (FoodOrderRow × Option OrderItemRow) :=
  match db.orderItems.filter fun i => i.orderID == o.id && i.userID == userID with
  | [] => [(o, none)]
  | own => own.map fun i => (o, some i)

/-- The collector or the person fetching the food. -/
def holdsJob (userID : UUID) (o : FoodOrderRow) : Bool :=
  o.moneyCollectorID == some userID || o.pickupPersonID == some userID

/-- The query of `ImpactOfDeleting`. -/
def deletionImpact (userID : UUID) (stamp : Time) : DeletionImpact :=
  let now := pgTime stamp
  let joined := (db.foodOrders.flatMap (db.leftJoinOwnItems userID)).filter fun (o, i) =>
    now < o.deadlineAt && (o.creatorID == userID || i.isSome || holdsJob userID o)
  { activeOrders := (joined.map fun (o, _) => o.id).dedup.length
    activeItems := db.orderItems.countP fun i => i.userID == userID && db.itemOpen stamp i
    expiredItems := db.orderItems.countP fun i => i.userID == userID && db.itemExpired stamp i
    createdActiveOrders :=
      db.foodOrders.countP fun o => o.creatorID == userID && now < o.deadlineAt
    activeJobs := db.foodOrders.countP fun o => now < o.deadlineAt && holdsJob userID o }

/-- `IsParticipant` of an order that is there. -/
def isParticipant (orderID userID : UUID) : Option Bool :=
  (db.foodOrder orderID).map fun o =>
    o.creatorID == userID || o.moneyCollectorID == some userID || o.pickupPersonID == some userID ||
      db.orderItems.any fun i => i.orderID == o.id && i.userID == userID

end Db

inductive ImpactStmt where
  | clock
  | counts
  deriving DecidableEq, Repr

def impactOfDeleting (userID : UUID) (now : Time) : DbProgram ImpactStmt DeletionImpact := do
  let stamp ← stampAt .clock now
  (queryRow .counts fun db => some (db.deletionImpact userID stamp)).mapError otherError

/-! ## What the statements do -/

/-- The row passes to the placeholder. -/
def OrderItemRow.reassign (now : Time) (i : OrderItemRow) : OrderItemRow :=
  i.update deletedUserID now fun i => { i with userID := deletedUserID }

def FoodOrderRow.reassign (now : Time) (o : FoodOrderRow) : FoodOrderRow :=
  o.stamp deletedUserID now { o with creatorID := deletedUserID }

/-- `updated_by` of a row, once an account is gone. -/
def forgetActor (userID : UUID) (actor : Option UUID) : Option UUID :=
  if actor = some userID then none else actor

/-- The foreign keys of an item to a deleted account: `SET DEFAULT`, and `SET NULL`. -/
def OrderItemRow.forgetUser (userID : UUID) (now : Time) (i : OrderItemRow) : OrderItemRow :=
  { i with
    userID := if i.userID = userID then deletedUserID else i.userID
    updatedAt := if i.userID = userID then pgTime now else i.updatedAt
    updatedBy := forgetActor userID i.updatedBy }

/-- The foreign keys of an order to a deleted account. A job of theirs is nobody's. -/
def FoodOrderRow.forgetUser (userID : UUID) (now : Time) (o : FoodOrderRow) : FoodOrderRow :=
  let touched := o.creatorID = userID ∨ o.moneyCollectorID = some userID ∨
    o.pickupPersonID = some userID
  { o with
    creatorID := if o.creatorID = userID then deletedUserID else o.creatorID
    moneyCollectorID := forgetActor userID o.moneyCollectorID
    pickupPersonID := forgetActor userID o.pickupPersonID
    updatedAt := if touched then pgTime now else o.updatedAt
    updatedBy := forgetActor userID o.updatedBy }

def OrderMessageRow.forgetUser (userID : UUID) (m : OrderMessageRow) : OrderMessageRow :=
  { m with userID := if m.userID = userID then deletedUserID else m.userID }

namespace Db

/-- The placeholder that rows are handed to is there. -/
def hasPlaceholder (db : Db) : Bool := (db.userByID deletedUserID).isSome

/-- The items of an account in expired orders, and in active ones. -/
def expiredItemsOf (db : Db) (userID : UUID) (stamp : Time) : List UUID :=
  (db.orderItems.filter fun i => i.userID == userID && db.itemExpired stamp i).map OrderItemRow.id

def openItemsOf (db : Db) (userID : UUID) (stamp : Time) : List UUID :=
  (db.orderItems.filter fun i => i.userID == userID && db.itemOpen stamp i).map OrderItemRow.id

def createdOrders (db : Db) (userID : UUID) : List UUID :=
  (db.foodOrders.filter fun o => o.creatorID == userID).map FoodOrderRow.id

/-- `UPDATE order_item SET user_id = …` of the rows it saw. -/
def reassignOrderItems (now : Time) (seen : List UUID) (db : Db) : Except PgError Db :=
  if (db.orderItems.any fun i => seen.contains i.id) && !db.hasPlaceholder then
    .error .foreignKeyViolation
  else
    .ok (db.setOrderItems
      (db.orderItems.map fun i => if seen.contains i.id then i.reassign now else i))

/-- `UPDATE food_order SET creator_id = …` of the rows it saw. -/
def reassignFoodOrders (now : Time) (seen : List UUID) (db : Db) : Except PgError Db :=
  if (db.foodOrders.any fun o => seen.contains o.id) && !db.hasPlaceholder then
    .error .foreignKeyViolation
  else
    .ok (db.setFoodOrders
      (db.foodOrders.map fun o => if seen.contains o.id then o.reassign now else o))

/-- A row that would pass to the placeholder. -/
def ownsRows (db : Db) (userID : UUID) : Bool :=
  (db.foodOrders.any fun o => o.creatorID == userID) ||
    (db.orderItems.any fun i => i.userID == userID) ||
    db.orderMessages.any fun m => m.userID == userID

/-- What the foreign keys do when an account goes. -/
@[simps] def cascadeAppUser (db : Db) (userID : UUID) (now : Time) : Db :=
  { db with
    appUsers := keep (fun u => u.id == userID) db.appUsers
    sessions := keep (fun s => s.userID == userID) db.sessions
    apiTokens := keep (fun t => t.userID == userID) db.apiTokens
    menuItems := db.menuItems.map fun m => { m with updatedBy := forgetActor userID m.updatedBy }
    foodOrders := db.foodOrders.map (FoodOrderRow.forgetUser userID now)
    orderItems := db.orderItems.map (OrderItemRow.forgetUser userID now)
    orderMessages := db.orderMessages.map (OrderMessageRow.forgetUser userID) }

/-- `DELETE FROM app_user WHERE id = …`. The trigger keeps the placeholder and the administrator. -/
def deleteAppUser (userID : UUID) (now : Time) (db : Db) : Except PgError Db :=
  match db.userByID userID with
  | none => .ok db
  | some u =>
    if u.id = deletedUserID ∨ u.isAdmin then .error .restrictViolation
    else if db.ownsRows userID && !db.hasPlaceholder then .error .foreignKeyViolation
    else .ok (db.cascadeAppUser userID now)

end Db

/-! ## The transaction -/

inductive DeleteAccountStmt where
  | clock
  | begin
  | reassignItems
  | deleteItems
  | reassignOrders
  | deleteUser
  | commit
  deriving DecidableEq, Repr

/-- `remapAndDelete` -/
def remapAndDelete (tx : PgTx) (userID : UUID) (stamp : Time) :
    DbProgram DeleteAccountStmt PgTx := do
  -- items in expired orders: reassign
  let tx ← (tx.exec .reassignItems fun view =>
    Db.reassignOrderItems tx.began (view.expiredItemsOf userID stamp)).mapError otherError
  -- items in active orders: delete
  let tx ← (tx.exec .deleteItems fun view db =>
    .ok (db.deleteOrderItems fun i => (view.openItemsOf userID stamp).contains i.id)).mapError
      otherError
  -- orders created by the user: reassign, active or not
  let tx ← (tx.exec .reassignOrders fun view =>
    Db.reassignFoodOrders tx.began (view.createdOrders userID)).mapError otherError
  let (tx, rows) ← (tx.execRows .deleteUser (fun _ => Db.deleteAppUser userID tx.began) fun view =>
    view.appUsers.countP fun u => u.id == userID).mapError otherError
  Prog.require (rows != 0) .notFound
  pure tx

theorem remapAndDelete_reads (tx : PgTx) (userID : UUID) (stamp : Time) :
    (remapAndDelete tx userID stamp).Reads fun l => l ≠ .commit := by
  refine .bind ((tx.exec_reads (by decide)).mapError _) fun tx => ?_
  refine .bind ((tx.exec_reads (by decide)).mapError _) fun tx => ?_
  refine .bind ((tx.exec_reads (by decide)).mapError _) fun tx => ?_
  refine .bind ((tx.execRows_reads (by decide)).mapError _) fun (tx, rows) => ?_
  exact .bind (.require _ _) fun _ => .done _

def deleteAccount (userID : UUID) (now : Time) : DbProgram DeleteAccountStmt Unit := do
  let stamp ← stampAt .clock now
  let tx ← (begin .begin).mapError otherError
  let tx ← remapAndDelete tx userID stamp
  (tx.commit .commit).mapError otherError

end Doenerstag
