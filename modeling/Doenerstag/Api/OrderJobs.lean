import Doenerstag.Api.Orders

/-!
# The two jobs of an order (`internal/api/orderjobs.go`)

Taking on and giving up fetching the food and collecting the money.
-/

namespace Doenerstag

open ReadCommitted

/-- `orderJob`: one of the two jobs, with the field it is stored in. -/
structure OrderJob where
  field : String
  holder : Order → Option UUID
  assign : OrderUpdate → Option UUID → OrderUpdate

def fetchingTheFood : OrderJob where
  field := "pickup_person_id"
  holder := Order.pickupPersonID
  assign := fun u ref => { u with pickupPersonID := some ref }

def collectingTheMoney : OrderJob where
  field := "money_collector_id"
  holder := Order.moneyCollectorID
  assign := fun u ref => { u with moneyCollectorID := some ref }

namespace OrderHandlers

variable (h : OrderHandlers)

/-- `claimJob`: it only fills a vacancy. -/
def claimJob (job : OrderJob) (r : Request Unit) : Handler OrderStmt OrderResponse := do
  let order ← h.lookupOrder r
  let principal ← .ofExcept (requireAuthenticated r.principal)
  requireActive order
  Prog.require (job.holder order).isNone (.on codeJobTaken job.field)
  h.update order principal.userID (job.assign .empty (some principal.userID))

/-- The person doing the job, the order's creator or the administrator. -/
def requireJobHolder (principal : Principal) (order : Order) (job : OrderJob) :
    Except ApiError Unit :=
  if principal.isAdmin || order.creatorID == principal.userID ||
      job.holder order == some principal.userID then
    .ok ()
  else .error (.on codeNotJobHolder job.field)

/-- `releaseJob`. Clearing a job nobody has is no error, and no write. -/
def releaseJob (job : OrderJob) (r : Request Unit) : Handler OrderStmt OrderResponse := do
  let order ← h.lookupOrder r
  let principal ← .ofExcept (requireAuthenticated r.principal)
  Prog.ofExcept (requireJobHolder principal order job)
  requireActive order
  if (job.holder order).isNone then
    (h.writeDetail order 200).within .detail
  else
    h.update order principal.userID (job.assign .empty none)

end OrderHandlers

end Doenerstag
