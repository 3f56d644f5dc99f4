import Doenerstag.Api.OrderItems
import Doenerstag.Api.OrderReads
import Doenerstag.Sse.Hub

/-!
# What is published about an order (`internal/api/events.go`)

`publishItemChange` and `publishOrderChange`, as programs that end with the events they hand to
`Publish`. The payload of an event is encoded by `json.Marshal`, a parameter: an event whose payload
it cannot encode is left out.
-/

namespace Doenerstag

open ReadCommitted

/-- What an event carries, before it is encoded. -/
inductive EventPayload where
  | item (body : OrderItemBody)
  | id (id : String)
  | itemCount (count : Int64)
  | header (body : OrderHeaderBody)
  | entry (body : OrderListEntry)
  deriving DecidableEq, Repr

variable {δ : Type}

/-- One event, if its payload can be encoded. -/
def eventFor (marshal : EventPayload → Option δ) (name : String) (audience : Sse.Audience)
    (payload : EventPayload) : List (Sse.Event δ) :=
  (marshal payload).toList.map fun data => { name, audience, data }

namespace OrderHandlers

variable (h : OrderHandlers) (marshal : EventPayload → Option δ)

/-- The events of `publishItemChange`: the item for those who may see it, and the number of items
for those who may not. The count is left out if it cannot be read. -/
def itemChangeEvents (orderID : UUID) (name : String) (payload : EventPayload) :
    Handler OrderStmt (List (Sse.Event δ)) := do
  if h.events then
    let item := eventFor marshal name .authenticatedOnly payload
    let count ← (countOrderItems .publish orderID).option
    let counted := count.toList.flatMap fun n =>
      eventFor marshal Sse.eventOrderItemCount .anonymousOnly (.itemCount n)
    pure (item ++ counted)
  else
    pure []

/-- The events of `publishOrderChange`: the header without people, and the list entry. -/
def orderChangeEvents (order : Order) : Handler OrderReadStmt (List (Sse.Event δ)) := do
  if h.events then
    let header ← h.headerNow order
    let entry ← h.entryNow order
    pure (eventFor marshal Sse.eventOrderUpdated .anonymousOnly (.header header) ++
      eventFor marshal Sse.eventOrderUpdated .authenticatedOnly (.entry entry))
  else
    pure []

/-- The count that `publishItemChange` reads is the statement it makes. -/
theorem itemChangeEvents_publishes (orderID : UUID) (name : String) (payload : EventPayload) :
    (h.itemChangeEvents marshal orderID name payload >>= fun _ => pure ()) =
      h.publishItemChange orderID := by
  unfold itemChangeEvents publishItemChange
  split_ifs
  · show ((countOrderItems OrderStmt.publish orderID).option >>= _) >>= _ = _
    rw [Prog.bind_assoc]
    exact Prog.option_bind_const _ _
  · rfl

end OrderHandlers

/-- A call of one of the two. -/
inductive PublishCall where
  | itemChange (orderID : UUID) (name : String) (payload : EventPayload)
  | orderChange (order : Order)
  deriving DecidableEq, Repr

namespace PublishCall

def orderID : PublishCall → UUID
  | itemChange orderID _ _ => orderID
  | orderChange order => order.id

def events (h : OrderHandlers) (marshal : EventPayload → Option δ) :
    PublishCall → Handler OrderReadStmt (List (Sse.Event δ))
  | itemChange orderID name payload =>
    (h.itemChangeEvents marshal orderID name payload).within .order
  | orderChange order => h.orderChangeEvents marshal order

/-- The same call, as far as an anonymous caller is concerned: about the same order, which shows the
same to everybody. Which item has changed, and how, may differ. -/
inductive Corresponds : PublishCall → PublishCall → Prop where
  | itemChange (orderID : UUID) (name name' : String) (payload payload' : EventPayload) :
      Corresponds (.itemChange orderID name payload) (.itemChange orderID name' payload')
  | orderChange {order order' : Order} (same : order.headerFields = order'.headerFields) :
      Corresponds (.orderChange order) (.orderChange order')

end PublishCall

end Doenerstag
