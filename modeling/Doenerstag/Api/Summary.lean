import Doenerstag.Api.OrderBody
import Doenerstag.Lib.GroupFold

/-!
# The order summary (`internal/api/summary.go`)

`buildSummary` and the functions under it. `aggregate` groups the items by what would be dictated
down the telephone, `perPerson` by who ordered them; both are the loop of `Lib.GroupFold` with a
key, a new line, and what an item adds to a line.
-/

namespace Doenerstag

open GroupFold

/-- One line of the order as it would be dictated. -/
structure AggregatedLine where
  itemName : String
  externalID : String
  modifications : List String
  note : Option String
  count : Int64
  unitPriceCents : Int64
  totalCents : Int64
  deriving DecidableEq, Repr

structure PersonLine where
  userID : String
  displayName : String
  items : List OrderItemBody
  totalCents : Int64
  paidCents : Int64
  deriving DecidableEq, Repr

structure SummaryBody where
  orderID : String
  title : String
  currencyCode : String
  restaurantName : String
  fulfilmentAt : String
  aggregated : List AggregatedLine
  perPerson : List PersonLine
  itemTotalCents : Int64
  unpaidTotalCents : Int64
  paidTotalCents : Int64
  deliveryFeeCents : Option Int64
  grandTotalCents : Int64
  minOrderValueCents : Option Int64
  belowMinimum : Bool
  plainText : String
  deriving DecidableEq, Repr

/-! ## The aggregated lines -/

/-- The sorted set of selected modification names. -/
def modificationNames (item : OrderItem) : List String :=
  sortStrings (item.modifications.map OrderItemModification.name)

/-- Trimmed and lower-cased. -/
def normaliseNote (rt : Runtime) (note : String) : String := rt.toLower (trimSpace note)

/-- The key of `aggregate`: two items with the same one are the same thing, ordered twice. -/
structure AggregateKey where
  menuItemID : UUID
  modifications : String
  note : String
  unitPrice : Int64
  deriving DecidableEq, Repr

def aggregateKey (rt : Runtime) (item : OrderItem) : AggregateKey :=
  { menuItemID := item.menuItemID
    modifications := join (modificationNames item) "\x00"
    note := normaliseNote rt item.note
    unitPrice := item.unitPriceCents }

/-- The line an item opens when it is the first with its key. -/
def newLine (externalIDs : UUID → Option String) (item : OrderItem) : AggregatedLine :=
  { itemName := item.itemName
    externalID := (externalIDs item.menuItemID).getD ""
    modifications := modificationNames item
    note := if trimSpace item.note ≠ "" then some (trimSpace item.note) else none
    count := 0
    unitPriceCents := item.unitPriceCents
    totalCents := 0 }

/-- The total is summed from the items rather than multiplied out. -/
def AggregatedLine.take (line : AggregatedLine) (item : OrderItem) : AggregatedLine :=
  { line with
    count := line.count + item.quantity
    totalCents := line.totalCents + item.lineTotalCents }

/-- The value of a string of ASCII digits in `int64` arithmetic, or nothing for any other. -/
def numericID (value : String) : Option Int64 :=
  if value = "" then none
  else value.toList.foldl
    (fun n r => n.bind fun n =>
      if r < '0' ∨ '9' < r then none else some (n * 10 + Int64.ofNat (r.toNat - '0'.toNat)))
    (some 0)

/-- F4.6 for two summary lines. -/
def lessByMenuOrder (rt : Runtime) (a b : AggregatedLine) : Bool :=
  let an := numericID a.externalID
  let bn := numericID b.externalID
  if a.externalID = "" ∧ b.externalID ≠ "" then false
  else if a.externalID ≠ "" ∧ b.externalID = "" then true
  else if an.isSome ∧ bn.isSome ∧ an.getD 0 ≠ bn.getD 0 then an.getD 0 < bn.getD 0
  else if an.isSome ≠ bn.isSome then an.isSome
  else if a.externalID ≠ b.externalID then a.externalID < b.externalID
  else rt.toLower a.itemName < rt.toLower b.itemName

/-- Groups identical orders together, in the order of the menu. -/
def aggregate (rt : Runtime) (items : List OrderItem) (externalIDs : UUID → Option String) :
    List AggregatedLine :=
  sliceStable (lessByMenuOrder rt)
    (groupFold (aggregateKey rt) (newLine externalIDs) AggregatedLine.take items).collect

/-! ## The per-person lines -/

/-- The line of somebody seen for the first time. -/
def newPerson (item : OrderItem) : PersonLine :=
  { userID := item.userID.string
    displayName := item.userName
    items := []
    totalCents := 0
    paidCents := 0 }

def PersonLine.take (line : PersonLine) (item : OrderItem) : PersonLine :=
  let line := { line with items := line.items ++ [publicOrderItem item] }
  if item.paid then { line with paidCents := line.paidCents + item.lineTotalCents }
  else { line with totalCents := line.totalCents + item.lineTotalCents }

/-- Groups the items by who ordered them, by name. -/
def perPerson (rt : Runtime) (items : List OrderItem) : List PersonLine :=
  sliceStable (fun a b => rt.toLower a.displayName < rt.toLower b.displayName)
    (groupFold OrderItem.userID newPerson PersonLine.take items).collect

/-! ## The body -/

/-- One line of `plainText`, for reading down a telephone. -/
def plainLine (line : AggregatedLine) : String :=
  let details := line.modifications ++ line.note.toList
  toString line.count.toInt ++ "x " ++
    (if line.externalID ≠ "" then line.externalID ++ " " else "") ++ line.itemName ++
    (if details ≠ [] then " (" ++ join details ", " ++ ")" else "") ++ "\n"

def plainText (lines : List AggregatedLine) : String := join (lines.map plainLine) ""

/-- The paid and the unpaid total, as the loop of `buildSummary` splits them. -/
def paidSplit (items : List OrderItem) : Int64 × Int64 :=
  items.foldl
    (fun (paid, unpaid) item =>
      if item.paid then (paid + item.lineTotalCents, unpaid)
      else (paid, unpaid + item.lineTotalCents))
    (0, 0)

def buildSummary (rt : Runtime) (order : Order) (items : List OrderItem)
    (externalIDs : UUID → Option String) : SummaryBody :=
  let aggregated := aggregate rt items externalIDs
  let itemTotal := aggregated.foldl (fun total line => total + line.totalCents) 0
  let (paid, unpaid) := paidSplit items
  { orderID := order.id.string
    title := order.title rt
    currencyCode := order.currencyCode
    restaurantName := order.restaurantName
    fulfilmentAt := order.fulfilmentAt.rfc3339
    aggregated := aggregated
    perPerson := perPerson rt items
    itemTotalCents := itemTotal
    unpaidTotalCents := unpaid
    paidTotalCents := paid
    deliveryFeeCents := order.deliveryFeeCents
    grandTotalCents :=
      match order.deliveryFeeCents with
      | some fee => itemTotal + fee
      | none => itemTotal
    minOrderValueCents := order.minOrderValueCents
    belowMinimum :=
      match order.minOrderValueCents with
      | some minimum => itemTotal < minimum
      | none => false
    plainText := plainText aggregated }

end Doenerstag
