import Doenerstag.Api.OrderJobs
import Doenerstag.Api.Users
import Doenerstag.Db.OrderDraw

/-!
# What touches the jobs of an order

`Job` is one of the two jobs, with the columns it has in `food_order`; `JobRequest` is everything
that writes those columns, with the draw of `internal/api/orderdraw.go`, which no request asks for.
A statement is labelled with what it belongs to.
-/

namespace Doenerstag

open ReadCommitted Prog

/-! ## The jobs -/

inductive Job where
  | food
  | money
  deriving DecidableEq, Repr

namespace Job

def orderJob : Job → OrderJob
  | food => fetchingTheFood
  | money => collectingTheMoney

/-- Who has the job. -/
def holder (job : Job) (o : FoodOrderRow) : Option UUID :=
  match job with
  | food => o.pickupPersonID
  | money => o.moneyCollectorID

/-- Whether the draw is said to have filled the job. -/
def drawn (job : Job) (o : FoodOrderRow) : Bool :=
  match job with
  | food => o.pickupPersonDrawn
  | money => o.moneyCollectorDrawn

/-- What a change of an order says about the job, if it says anything. -/
def named (job : Job) (change : OrderUpdate) : Option (Option UUID) :=
  match job with
  | food => change.pickupPersonID
  | money => change.moneyCollectorID

/-- An order that was found shows the holder of its row. -/
theorem holder_scanOrder (job : Job) {db : Db} {o : FoodOrderRow} {order : Order}
    (h : db.scanOrder o = some order) : job.orderJob.holder order = job.holder o := by
  simp only [Db.scanOrder, Option.bind_eq_bind, Option.bind_eq_some_iff, Option.pure_def,
    Option.some.injEq] at h
  obtain ⟨r, -, u, -, rfl⟩ := h
  cases job <;> rfl

end Job

/-! ## The draw -/

/-- The statements of a pass of the draw, with its look at the clock. -/
inductive DrawStmt where
  | now
  | jobs (s : DrawJobsStmt)
  /-- the order read back, to be published -/
  | order
  deriving DecidableEq, Repr

/-- `OrderHandlers.DrawJobs` -/
def OrderHandlers.drawJobs (choice : DrawChoice) : DbProgram DrawStmt (List Order) := do
  let now ← clock .now
  let filled ← (Doenerstag.drawJobs choice now).within .jobs
  filled.mapM (orderByID .order)

/-! ## The requests -/

inductive JobRequest where
  | create (id : UUID) (r : Request OrderHandlers.CreateOrderRequest)
  | patch (r : Request OrderHandlers.PatchOrderRequest)
  | claimJob (job : Job) (r : Request Unit)
  | releaseJob (job : Job) (r : Request Unit)
  | drawJobs (choice : DrawChoice)
  | deleteUser (r : Request Unit)

inductive JobStmt where
  | order (s : OrderStmt)
  | draw (s : DrawStmt)
  | user (s : DeleteUserStmt)
  deriving DecidableEq, Repr

namespace JobRequest

/-- What is left of a request when it has been answered. -/
def answered {ℓ α : Type} (p : Handler ℓ α) : Handler ℓ Unit := do
  let _ ← p
  pure ()

def serve (h : OrderHandlers) : JobRequest → Handler JobStmt Unit
  | create id r => answered ((h.create id r).within .order)
  | patch r => answered ((h.patch r).within .order)
  | claimJob job r => answered ((h.claimJob job.orderJob r).within .order)
  | releaseJob job r => answered ((h.releaseJob job.orderJob r).within .order)
  | drawJobs choice => answered (((OrderHandlers.drawJobs choice).within .draw).mapError dbError)
  | deleteUser r => (Doenerstag.deleteUser h.rt r).within .user

end JobRequest

end Doenerstag
