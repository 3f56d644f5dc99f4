import Doenerstag.Model.Order

/-!
# What the order endpoints answer with (`internal/api/orders.go`)

The header an anonymous caller is served, the list entry and the detail an authenticated one is,
and the arithmetic of the detail: `OrderHandlers.writeDetail` from the point where the items and
the number of messages have been read.
-/

namespace Doenerstag

/-- What every caller sees, anonymous included: no item data, and nobody's name. -/
structure OrderHeaderBody where
  id : String
  title : String
  restaurantID : String
  restaurantName : String
  restaurantLogo : Option String
  fulfilment : String
  fulfilmentAt : String
  deadlineAt : String
  status : String
  currencyCode : String
  minOrderValueCents : Option Int64
  deliveryFeeCents : Option Int64
  itemCount : Int64
  createdAt : String
  updatedAt : String
  deriving DecidableEq, Repr

/-- The header plus the three people an order has, for a logged-in caller. -/
structure OrderListEntry extends OrderHeaderBody where
  creatorID : String
  creatorName : String
  moneyCollectorID : Option String
  moneyCollectorName : String
  pickupPersonID : Option String
  pickupPersonName : String
  moneyCollectorDrawn : Bool
  pickupPersonDrawn : Bool
  deriving DecidableEq, Repr

structure OrderModificationBody where
  id : String
  modificationID : Option String
  name : String
  priceDeltaCents : Int64
  deriving DecidableEq, Repr

structure OrderItemBody where
  id : String
  userID : String
  userName : String
  menuItemID : String
  quantity : Int64
  itemName : String
  unitPriceCents : Int64
  note : String
  modifications : List OrderModificationBody
  lineTotalCents : Int64
  paid : Bool
  createdAt : String
  deriving DecidableEq, Repr

/-- The authenticated shape: the list entry, and the items with their totals. -/
structure OrderDetailBody extends OrderListEntry where
  items : List OrderItemBody
  itemTotalCents : Int64
  grandTotalCents : Int64
  belowMinimum : Bool
  unpaidTotalCents : Int64
  paidTotalCents : Int64
  messageCount : Int64
  deriving DecidableEq, Repr

def publicHeader (rt : Runtime) (now : Time) (o : Order) : OrderHeaderBody :=
  { id := o.id.string
    title := o.title rt
    restaurantID := o.restaurantID.string
    restaurantName := o.restaurantName
    restaurantLogo := o.restaurantLogo.map UUID.string
    fulfilment := o.fulfilment
    fulfilmentAt := o.fulfilmentAt.rfc3339
    deadlineAt := o.deadlineAt.rfc3339
    status := o.status now
    currencyCode := o.currencyCode
    minOrderValueCents := o.minOrderValueCents
    deliveryFeeCents := o.deliveryFeeCents
    itemCount := o.itemCount
    createdAt := o.createdAt.rfc3339
    updatedAt := o.updatedAt.rfc3339 }

def publicOrderItem (i : OrderItem) : OrderItemBody :=
  { id := i.id.string
    userID := i.userID.string
    userName := i.userName
    menuItemID := i.menuItemID.string
    quantity := i.quantity
    itemName := i.itemName
    unitPriceCents := i.unitPriceCents
    note := i.note
    modifications := i.modifications.map fun m =>
      { id := m.id.string
        modificationID := m.modificationID.map UUID.string
        name := m.name
        priceDeltaCents := m.priceDeltaCents }
    lineTotalCents := i.lineTotalCents
    paid := i.paid
    createdAt := i.createdAt.rfc3339 }

def listEntry (rt : Runtime) (now : Time) (o : Order) : OrderListEntry :=
  { publicHeader rt now o with
    creatorID := o.creatorID.string
    creatorName := o.creatorName
    moneyCollectorID := o.moneyCollectorID.map UUID.string
    moneyCollectorName := o.moneyCollectorName
    pickupPersonID := o.pickupPersonID.map UUID.string
    pickupPersonName := o.pickupPersonName
    moneyCollectorDrawn := o.moneyCollectorDrawn && o.moneyCollectorID.isSome
    pickupPersonDrawn := o.pickupPersonDrawn && o.pickupPersonID.isSome }

/-- One iteration of the loop of `writeDetail`: the rendered item joins the body and the totals. -/
def OrderDetailBody.addItem (body : OrderDetailBody) (i : OrderItem) : OrderDetailBody :=
  let rendered := publicOrderItem i
  let body := { body with itemTotalCents := body.itemTotalCents + rendered.lineTotalCents }
  let body :=
    if rendered.paid then
      { body with paidTotalCents := body.paidTotalCents + rendered.lineTotalCents }
    else
      { body with unpaidTotalCents := body.unpaidTotalCents + rendered.lineTotalCents }
  { body with items := body.items ++ [rendered] }

/-- `writeDetail`, once the items and the message count have been read. -/
def detailBody (rt : Runtime) (now : Time) (order : Order) (items : List OrderItem)
    (messageCount : Int64) : OrderDetailBody :=
  let start : OrderDetailBody :=
    { listEntry rt now order with
      items := []
      itemTotalCents := 0
      grandTotalCents := 0
      belowMinimum := false
      unpaidTotalCents := 0
      paidTotalCents := 0
      messageCount := 0 }
  let body := items.foldl OrderDetailBody.addItem start
  { body with
    grandTotalCents :=
      match order.deliveryFeeCents with
      | some fee => body.itemTotalCents + fee
      | none => body.itemTotalCents
    belowMinimum :=
      match order.minOrderValueCents with
      | some minimum => body.itemTotalCents < minimum
      | none => false
    itemCount := Int64.ofNat items.length
    messageCount := messageCount }

end Doenerstag
