import Doenerstag.Api.Fields
import Doenerstag.Api.OrderBody

/-!
# Orders (`internal/api/orders.go`)

The handlers that create and change an order, with their validation, as programs of the statements
they run. What is published to the event stream is left out, but for the count of the items that
publishing reads.
-/

namespace Doenerstag

open ReadCommitted

def maxOrderNoteLength : Nat := 500
def maxOrderItemQuantity : Int64 := 99

/-- `OrderHandlers`: what the server is linked with, and whether events are wired in. -/
structure OrderHandlers where
  rt : Runtime
  events : Bool

/-- What an order endpoint answers a request with that it did not refuse. -/
inductive OrderResponse where
  | item (status : Nat) (body : OrderItemBody)
  | detail (status : Nat) (body : OrderDetailBody)
  | noContent
  deriving DecidableEq, Repr

/-- The statements of `writeDetail`, with its look at the clock. -/
inductive DetailStmt where
  | list (s : ItemsStmt)
  | now
  | messages
  deriving DecidableEq, Repr

/-- The statements of the order handlers, by what they are for. -/
inductive OrderStmt where
  /-- `lookupOrder` -/
  | order
  /-- `lookupOrderItem` -/
  | item (s : ItemsStmt)
  /-- the look at the clock that decides whether the order is open -/
  | now
  | itemCount
  | restaurant
  | moneyCollector
  | pickupPerson
  | createOrder (s : CreateOrderStmt)
  | updateOrder (s : UpdateOrderStmt)
  | addOrderItem (s : AddOrderItemStmt)
  | updateOrderItem (s : UpdateOrderItemStmt)
  | deleteOrderItem
  /-- the count in `publishItemChange` -/
  | publish
  | detail (s : DetailStmt)
  deriving DecidableEq, Repr

/-- The statement checks a field of the body. -/
def OrderStmt.Validating : OrderStmt → Prop
  | .itemCount => True
  | .restaurant => True
  | .moneyCollector => True
  | .pickupPerson => True
  | _ => False

/-! ## Validation -/

def validateFulfilment (rt : Runtime) (value : String) : Except ApiError String :=
  let folded := rt.toLower (trimSpace value)
  if folded = fulfilmentPickup then .ok fulfilmentPickup
  else if folded = fulfilmentDelivery then .ok fulfilmentDelivery
  else if folded = "" then .error (.on codeMissingField "fulfilment")
  else .error { code := codeInvalidField, field := "fulfilment",
                detail := "the fulfilment must be pickup or delivery" }

/-- F5.3: the deadline lies strictly before the fulfilment time. -/
def checkDeadline (deadlineAt fulfilmentAt : Time) : Except ApiError Unit :=
  if deadlineAt < fulfilmentAt then .ok () else .error (.on codeDeadlineAfterFulfil "deadline_at")

def unknownRestaurant : ApiError :=
  { code := codeInvalidField, field := "restaurant_id", detail := "no restaurant has this id" }

namespace OrderHandlers

variable (h : OrderHandlers)

/-- An account reference that may be absent: the empty string is nobody. -/
def optionalUserRef (l : OrderStmt) (value field : String) : Handler OrderStmt (Option UUID) :=
  let trimmed := trimSpace value
  if trimmed = "" then pure none
  else match h.rt.parseUUID trimmed with
    | none => throw (invalidID field)
    | some id =>
      if id = deletedUserID then
        throw { code := codeInvalidField, field := field, detail := "this is not a person" }
      else do
        let _ ← (userByID l id).mapError fun e =>
          if e = .notFound then
            { code := codeInvalidField, field := field, detail := "no account has this id" }
          else .of codeDatabaseUnavailable
        pure (some id)

/-! ## Looking up and answering -/

def lookupOrder {β : Type} (r : Request β) : Handler OrderStmt Order :=
  loadParam h.rt r.id (orderByID .order)

/-- F6.6: no write after the deadline, for anybody. -/
def requireActive (order : Order) : Handler OrderStmt Unit := do
  let now ← clock .now
  Prog.require (order.active now) (.of codeOrderClosed)

/-- `writeDetail`: the authenticated shape, with the items and the number of messages. -/
def writeDetail (order : Order) (status : Nat) : Handler DetailStmt OrderResponse := do
  let items ← ((listOrderItems h.rt order.id).within .list).mapError databaseUnavailable
  let now ← clock .now
  let messageCount ← (countMessages .messages order.id).mapError databaseUnavailable
  pure (.detail status (detailBody h.rt now order items messageCount))

/-! ## Creating -/

structure CreateOrderRequest where
  restaurantID : String
  fulfilment : String
  fulfilmentAt : String
  deadlineAt : String
  moneyCollectorID : String
  pickupPersonID : String
  deriving DecidableEq, Repr

def validateNewOrder (body : CreateOrderRequest) (creator : UUID) : Handler OrderStmt NewOrder := do
  let restaurantID ← .ofExcept (requiredUUID h.rt body.restaurantID "restaurant_id")
  let fulfilment ← .ofExcept (validateFulfilment h.rt body.fulfilment)
  let fulfilmentAt ← .ofExcept (requiredTime h.rt body.fulfilmentAt "fulfilment_at")
  let deadlineAt ← .ofExcept (requiredTime h.rt body.deadlineAt "deadline_at")
  Prog.ofExcept (checkDeadline deadlineAt fulfilmentAt)
  -- an order whose deadline has passed would be born closed
  let now ← clock .now
  Prog.require (now < deadlineAt) (.on codeDeadlineInThePast "deadline_at")
  let moneyCollector ←
    h.optionalUserRef .moneyCollector body.moneyCollectorID "money_collector_id"
  let pickupPerson ← h.optionalUserRef .pickupPerson body.pickupPersonID "pickup_person_id"
  pure {
    creatorID := creator
    restaurantID := restaurantID
    fulfilment := fulfilment
    fulfilmentAt := fulfilmentAt
    deadlineAt := deadlineAt
    moneyCollectorID := moneyCollector
    pickupPersonID := pickupPerson }

/-- A restaurant that does not exist inserts nothing, which the read-back finds out. -/
def createError (e : DbError) : ApiError :=
  if e = .notFound then unknownRestaurant else dbError e

/-- `create` up to `CreateOrder`: the order that was asked for. -/
def acceptNewOrder (r : Request CreateOrderRequest) : Handler OrderStmt NewOrder := do
  let principal ← .ofExcept (requireAuthenticated r.principal)
  let body ← .ofExcept r.body
  h.validateNewOrder body principal.userID

def create (id : UUID) (r : Request CreateOrderRequest) : Handler OrderStmt OrderResponse := do
  let order ← h.acceptNewOrder r
  let created ← ((createOrder id order).within .createOrder).mapError createError
  (h.writeDetail created 201).within .detail

/-! ## Changing -/

/-- A field that is absent is `none`. -/
structure PatchOrderRequest where
  restaurantID : Option String
  fulfilment : Option String
  fulfilmentAt : Option String
  deadlineAt : Option String
  moneyCollectorID : Option String
  pickupPersonID : Option String
  deriving DecidableEq, Repr

/-- F5.8: another restaurant, which has to exist, for an order without items. -/
def validateRestaurant (order : Order) (value : String) : Handler OrderStmt UUID := do
  let count ← (countOrderItems .itemCount order.id).mapError databaseUnavailable
  Prog.require (count ≤ 0) (.of codeRestaurantLocked)
  let id ← .ofExcept (requiredUUID h.rt value "restaurant_id")
  let found ← (restaurantExists .restaurant id).mapError databaseUnavailable
  Prog.require found unknownRestaurant
  pure id

def validateOrderPatch (order : Order) (body : PatchOrderRequest) :
    Handler OrderStmt OrderUpdate := do
  let restaurantID ← whenPresent body.restaurantID fun v => h.validateRestaurant order v
  let fulfilment ← whenPresent body.fulfilment fun v => .ofExcept (validateFulfilment h.rt v)
  let fulfilmentAt ← whenPresent body.fulfilmentAt fun v =>
    .ofExcept (requiredTime h.rt v "fulfilment_at")
  let deadlineAt ← whenPresent body.deadlineAt fun v =>
    .ofExcept (requiredTime h.rt v "deadline_at")
  -- whichever of the two is not being changed is taken from the order as it was read
  Prog.ofExcept (checkDeadline (deadlineAt.getD order.deadlineAt)
    (fulfilmentAt.getD order.fulfilmentAt))
  let moneyCollectorID ← whenPresent body.moneyCollectorID fun v =>
    h.optionalUserRef .moneyCollector v "money_collector_id"
  let pickupPersonID ← whenPresent body.pickupPersonID fun v =>
    h.optionalUserRef .pickupPerson v "pickup_person_id"
  pure { restaurantID, fulfilment, fulfilmentAt, deadlineAt, moneyCollectorID, pickupPersonID }

/-- `UpdateOrder` and the answer, which three of the handlers end in. -/
def update (order : Order) (actor : UUID) (change : OrderUpdate) :
    Handler OrderStmt OrderResponse := do
  let updated ← ((updateOrder order.id actor change).within .updateOrder).mapError dbError
  (h.writeDetail updated 200).within .detail

/-- `patch` up to `UpdateOrder`. -/
def acceptOrderPatch (r : Request PatchOrderRequest) :
    Handler OrderStmt (Order × UUID × OrderUpdate) := do
  let order ← h.lookupOrder r
  let principal ← .ofExcept (requireCreator r.principal order.creatorID)
  requireActive order
  let body ← .ofExcept r.body
  let change ← h.validateOrderPatch order body
  pure (order, principal.userID, change)

def patch (r : Request PatchOrderRequest) : Handler OrderStmt OrderResponse := do
  let (order, actor, change) ← h.acceptOrderPatch r
  h.update order actor change

/-! ## What the handlers read -/

theorem optionalUserRef_reads {L : OrderStmt → Prop} {l : OrderStmt} (hl : L l)
    (value field : String) : (h.optionalUserRef l value field).Reads L := by
  unfold optionalUserRef
  simp only
  split_ifs
  · exact .done _
  · cases h.rt.parseUUID (trimSpace value) with
    | none => exact .fail _
    | some id =>
      simp only
      split_ifs
      · exact .fail _
      · exact .bind ((userByID_reads hl id).mapError _) fun _ => .done _

theorem lookupOrder_reads {β : Type} (r : Request β) : (h.lookupOrder r).Reads (· = .order) :=
  loadParam_reads fun id => orderByID_reads (L := fun l => l = OrderStmt.order) rfl id

/-- The order a handler looks up is the one the path names. -/
theorem lookupOrder_returns {β : Type} {I : World Db Time → Prop} (r : Request β) :
    (h.lookupOrder r).Returns I fun order => h.rt.parseUUID r.id = some order.id := by
  unfold lookupOrder loadParam
  cases h.rt.parseUUID r.id with
  | none => exact Prog.returns_fail _
  | some id =>
    refine (queryRow_returns fun w order _ horder => ?_).mapError _ |>.mapError _
    rw [(Db.orderByID_eq_some _ horder).1]

theorem requireActive_reads (order : Order) : (requireActive order).Reads (· = .now) :=
  .bind (clock_reads (L := fun l => l = OrderStmt.now) rfl) fun _ => .require _ _

theorem validateRestaurant_reads (order : Order) (value : String) :
    (h.validateRestaurant order value).Reads OrderStmt.Validating := by
  refine .bind ((countOrderItems_reads trivial _).mapError _) fun count => ?_
  refine .bind (.require _ _) fun _ => .bind (.ofExcept _) fun id => ?_
  refine .bind ((restaurantExists_reads trivial _).mapError _) fun found => ?_
  exact .bind (.require _ _) fun _ => .done _

theorem validateOrderPatch_reads (order : Order) (body : PatchOrderRequest) :
    (h.validateOrderPatch order body).Reads OrderStmt.Validating := by
  refine .bind (whenPresent_reads fun v => ?_) fun _ => ?_
  · exact h.validateRestaurant_reads order v
  refine .bind (whenPresent_reads fun v => ?_) fun _ => ?_
  · exact .ofExcept _
  refine .bind (whenPresent_reads fun v => ?_) fun _ => ?_
  · exact .ofExcept _
  refine .bind (whenPresent_reads fun v => ?_) fun _ => .bind (.ofExcept _) fun _ => ?_
  · exact .ofExcept _
  refine .bind (whenPresent_reads fun v => ?_) fun _ => ?_
  · exact h.optionalUserRef_reads trivial _ _
  refine .bind (whenPresent_reads fun v => ?_) fun _ => .done _
  exact h.optionalUserRef_reads trivial _ _

theorem validateNewOrder_reads (body : CreateOrderRequest) (creator : UUID) :
    (h.validateNewOrder body creator).Reads fun _ => True := by
  refine .bind (.ofExcept _) fun _ => .bind (.ofExcept _) fun _ => ?_
  refine .bind (.ofExcept _) fun _ => .bind (.ofExcept _) fun _ => .bind (.ofExcept _) fun _ => ?_
  refine .bind (clock_reads trivial) fun _ => .bind (.require _ _) fun _ => ?_
  refine .bind ?_ fun _ => .bind ?_ fun _ => .done _
  · exact h.optionalUserRef_reads trivial _ _
  · exact h.optionalUserRef_reads trivial _ _

theorem acceptNewOrder_reads (r : Request CreateOrderRequest) :
    (h.acceptNewOrder r).Reads fun _ => True := by
  refine .bind (.ofExcept _) fun _ => .bind (.ofExcept _) fun _ => ?_
  exact h.validateNewOrder_reads _ _

theorem acceptOrderPatch_reads (r : Request PatchOrderRequest) :
    (h.acceptOrderPatch r).Reads fun _ => True := by
  refine .bind ((h.lookupOrder_reads r).mono fun _ _ => trivial) fun order => ?_
  refine .bind (.ofExcept _) fun _ => ?_
  refine .bind ((requireActive_reads order).mono fun _ _ => trivial) fun _ => ?_
  refine .bind (.ofExcept _) fun body => ?_
  exact .bind ((h.validateOrderPatch_reads order body).mono fun _ _ => trivial) fun _ => .done _

theorem writeDetail_reads (order : Order) (status : Nat) :
    (h.writeDetail order status).Reads fun _ => True := by
  refine .bind (((listOrderItems_reads _ _).within).mapError _) fun _ => ?_
  refine .bind (clock_reads trivial) fun _ => ?_
  exact .bind ((countMessages_reads trivial _).mapError _) fun _ => .done _

end OrderHandlers

/-- A server in UTC without an event stream. -/
def plainHandlers : OrderHandlers where
  rt := .ascii
  events := false

end Doenerstag
