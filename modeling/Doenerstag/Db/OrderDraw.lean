import Doenerstag.Db.Orders
import Doenerstag.Db.Sessions
import Mathlib.Data.List.Dedup

/-!
# The draw for the jobs nobody took (`internal/db/orderdraw.go`)

`DrawJobs` is one statement. What it leaves to chance, and to the sessions whose rows it finds
locked, is `DrawChoice`.

* `FoodOrderRow.draw` — the columns it sets.
* `Db.drawJobs` — the statement, with the orders whose jobs it filled.
-/

namespace Doenerstag

open ReadCommitted

/-- The rows that `SKIP LOCKED` passes over, and what `random()` comes to for an order. -/
structure DrawChoice where
  locked : UUID → Bool
  pick : UUID → Nat

/-- `UPDATE food_order o SET …`: the person picked goes into every job nobody has. -/
def FoodOrderRow.draw (picked : Option UUID) (now : Time) (o : FoodOrderRow) : FoodOrderRow :=
  { o with
    jobsDrawn := true
    moneyCollectorDrawn := o.moneyCollectorID.isNone && picked.isSome
    pickupPersonDrawn := o.pickupPersonID.isNone && picked.isSome
    moneyCollectorID := o.moneyCollectorID.or picked
    pickupPersonID := o.pickupPersonID.or picked
    -- `jobs_drawn` changes, so the trigger always stamps the row
    updatedAt := pgTime now }

namespace Db

variable (db : Db)

/-- `due` -/
def drawDue (choice : DrawChoice) (stamp : Time) (o : FoodOrderRow) : Bool :=
  !o.jobsDrawn && o.deadlineAt ≤ pgTime stamp && !choice.locked o.id

/-- `people`: everybody with an item in an order that has a vacancy, but the placeholder. -/
def drawPeople (o : FoodOrderRow) : List UUID :=
  if o.moneyCollectorID.isNone || o.pickupPersonID.isNone then
    ((db.orderItems.filter fun i => i.orderID == o.id && i.userID != deletedUserID).map
      OrderItemRow.userID).dedup
  else []

/-- `picked`, joined to the left of an order -/
def drawPicked (choice : DrawChoice) (o : FoodOrderRow) : Option UUID :=
  let people := db.drawPeople o
  people[choice.pick o.id % people.length]?

/-- A row after the draw. -/
def drawnFoodOrder (choice : DrawChoice) (stamp now : Time) (o : FoodOrderRow) : FoodOrderRow :=
  if drawDue choice stamp o then o.draw (db.drawPicked choice o) now else o

/-- The statement. No constraint can refuse it: the columns it sets are in no `CHECK`, and who has
an item has an account. -/
def drawJobs (choice : DrawChoice) (stamp now : Time) : Db × List UUID :=
  (db.setFoodOrders (db.foodOrders.map (db.drawnFoodOrder choice stamp now)),
    ((db.foodOrders.filter (drawDue choice stamp)).filter fun o =>
      (db.drawPicked choice o).isSome).map FoodOrderRow.id)

end Db

inductive DrawJobsStmt where
  | clock
  | draw
  deriving DecidableEq, Repr

def drawJobs (choice : DrawChoice) (now : Time) : DbProgram DrawJobsStmt (List UUID) := do
  let stamp ← stampAt .clock now
  (returningRows .draw fun now db => .ok (db.drawJobs choice stamp now)).mapError otherError

end Doenerstag
