import Doenerstag.Go
import Doenerstag.Lib.GroupFold

/-!
# Orders and their items (`internal/model/order.go`)

The domain types of a group order, and the three questions they answer by themselves: whether an
order is open, what it is called, and what a line comes to.
-/

namespace Doenerstag

def fulfilmentPickup : String := "pickup"
def fulfilmentDelivery : String := "delivery"

/-- `model.Order`. The currency, the minimum and the fee are copies taken from the restaurant when
it was chosen; the names are joined in for display. -/
structure Order where
  id : UUID
  creatorID : UUID
  creatorName : String
  restaurantID : UUID
  restaurantName : String
  restaurantLogo : Option UUID
  fulfilment : String
  fulfilmentAt : Time
  deadlineAt : Time
  moneyCollectorID : Option UUID
  moneyCollectorName : String
  pickupPersonID : Option UUID
  pickupPersonName : String
  moneyCollectorDrawn : Bool
  pickupPersonDrawn : Bool
  currencyCode : String
  minOrderValueCents : Option Int64
  deliveryFeeCents : Option Int64
  itemCount : Int64
  createdAt : Time
  updatedAt : Time
  deriving DecidableEq, Repr

/-- F5.5: an order is active while `now` is before the deadline. -/
def Order.active (o : Order) (now : Time) : Bool := now < o.deadlineAt

def Order.status (o : Order) (now : Time) : String :=
  if o.active now then "active" else "expired"

/-- F5.6: the restaurant and the fulfilment time. -/
def Order.title (rt : Runtime) (o : Order) : String :=
  o.restaurantName ++ " — " ++ o.fulfilmentAt.dateAndMinute rt

/-- `model.OrderItemModification`: one selected modification, snapshotted. -/
structure OrderItemModification where
  id : UUID
  orderItemID : UUID
  modificationID : Option UUID
  name : String
  priceDeltaCents : Int64
  deriving DecidableEq, Repr

/-- `model.OrderItem`: one person's line, with the name and the price it was ordered at. -/
structure OrderItem where
  id : UUID
  orderID : UUID
  userID : UUID
  userName : String
  menuItemID : UUID
  quantity : Int64
  itemName : String
  unitPriceCents : Int64
  note : String
  modifications : List OrderItemModification
  paid : Bool
  createdAt : Time
  updatedAt : Time
  deriving DecidableEq, Repr

/-- Quantity times the unit price plus every price delta, from the snapshots alone. -/
def OrderItem.lineTotalCents (i : OrderItem) : Int64 :=
  i.quantity * i.modifications.foldl (fun unit m => unit + m.priceDeltaCents) i.unitPriceCents

/-- The unit price and the deltas, added up one by one -/
theorem lineTotalCents_sum (i : OrderItem) : i.lineTotalCents =
    i.quantity * (i.unitPriceCents + (i.modifications.map OrderItemModification.priceDeltaCents).sum) :=
  congrArg (i.quantity * ·) (GroupFold.foldl_extend_measure (f := fun unit : Int64 => unit)
    (g := OrderItemModification.priceDeltaCents) (fun _ _ => rfl) i.modifications i.unitPriceCents)

end Doenerstag
