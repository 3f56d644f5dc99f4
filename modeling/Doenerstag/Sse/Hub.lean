import Doenerstag.Go
import Mathlib.Logic.Function.Basic

/-!
# Live events (`internal/sse/hub.go`)

One hub for an order, with the subscribers of the order, and a registry of the hubs. Hubs and
subscribers are shared by pointer; here a pointer is a number into the `Heap`. What is in the
events channel of a subscriber, and whether the channel is closed, is part of the subscriber.

Every section that holds a mutex is one function on the heap, and so is `sub.close` where it runs
outside the locks:

* `Heap.openHub`, `Heap.join` — `Subscribe`
* `Heap.leave`, `Heap.closeSub`, `Heap.forget` — `Unsubscribe`
* `Heap.hubFor`, `Heap.deliver` — `Publish`
* `Heap.takeHubs`, `Heap.drain` — `CloseAll`

`δ` is the encoded payload of an event.
-/

namespace Doenerstag.Sse

def eventItemCreated : String := "item.created"
def eventItemUpdated : String := "item.updated"
def eventItemDeleted : String := "item.deleted"
def eventOrderItemCount : String := "order.item_count"
def eventOrderUpdated : String := "order.updated"

inductive Audience where
  | everyone
  | authenticatedOnly
  | anonymousOnly
  deriving DecidableEq, Repr

structure Event (δ : Type) where
  name : String
  audience : Audience
  data : δ
  deriving DecidableEq, Repr

def subscriberBuffer : Nat := 16

/-- A stream: what its channel holds, the oldest first, and whether the channel is closed. -/
structure Subscriber (δ : Type) where
  authenticated : Bool
  events : List (Event δ)
  closed : Bool
  deriving DecidableEq, Repr

namespace Subscriber

variable {δ : Type} (s : Subscriber δ)

def wants (e : Event δ) : Bool :=
  match e.audience with
  | .everyone => true
  | .authenticatedOnly => s.authenticated
  | .anonymousOnly => !s.authenticated

/-- `close`. The second time does nothing. -/
def close : Subscriber δ := { s with closed := true }

/-- The reader takes the oldest event. -/
def receive : Subscriber δ := { s with events := s.events.tail }

end Subscriber

/-- How the loop over the events of one `Publish` has gone for one subscriber. -/
structure Sent (δ : Type) where
  sub : Subscriber δ
  /-- the channel was full, and the subscriber has been taken out of the hub -/
  dropped : Bool
  /-- a send found the channel closed: the goroutine panics -/
  panicked : Bool
  deriving DecidableEq, Repr

/-- The loop over the events. A subscriber that is dropped stays in the loop. -/
def Subscriber.sendAll {δ : Type} (s : Subscriber δ) (dropped : Bool) : List (Event δ) → Sent δ
  | [] => { sub := s, dropped, panicked := false }
  | e :: rest =>
    if !s.wants e then s.sendAll dropped rest
    else if s.closed then { sub := s, dropped, panicked := true }
    else if s.events.length < subscriberBuffer then
      { s with events := s.events ++ [e] }.sendAll dropped rest
    else s.close.sendAll true rest

section SendAll

variable {δ : Type} {s : Subscriber δ} {dropped : Bool} {e : Event δ} {rest : List (Event δ)}

theorem sendAll_unwanted (hwants : s.wants e = false) :
    s.sendAll dropped (e :: rest) = s.sendAll dropped rest := by
  simp [Subscriber.sendAll, hwants]

theorem sendAll_onClosed (hwants : s.wants e = true) (hclosed : s.closed = true) :
    s.sendAll dropped (e :: rest) = { sub := s, dropped, panicked := true } := by
  simp [Subscriber.sendAll, hwants, hclosed]

theorem sendAll_room (hwants : s.wants e = true) (hopen : s.closed = false)
    (hroom : s.events.length < subscriberBuffer) :
    s.sendAll dropped (e :: rest) = { s with events := s.events ++ [e] }.sendAll dropped rest := by
  simp [Subscriber.sendAll, hwants, hopen, hroom]

theorem sendAll_full (hwants : s.wants e = true) (hopen : s.closed = false)
    (hfull : ¬ s.events.length < subscriberBuffer) :
    s.sendAll dropped (e :: rest) = s.close.sendAll true rest := by
  simp [Subscriber.sendAll, hwants, hopen, hfull]

end SendAll

/-! ## The heap -/

abbrev HubID := Nat
abbrev SubID := Nat

structure Heap (δ : Type) where
  /-- `Registry.hubs` -/
  hubs : List (UUID × HubID)
  /-- `Hub.subscribers` -/
  subscribers : HubID → List SubID
  subs : SubID → Subscriber δ
  nextHub : HubID
  nextSub : SubID

namespace Heap

variable {δ : Type} (heap : Heap δ)

/-- `NewRegistry` -/
def empty : Heap δ where
  hubs := []
  subscribers := fun _ => []
  subs := fun _ => { authenticated := false, events := [], closed := false }
  nextHub := 0
  nextSub := 0

/-- `r.hubs[orderID]` -/
def hubFor (orderID : UUID) : Option HubID :=
  (heap.hubs.find? fun p => p.1 == orderID).map Prod.snd

/-- The hub of an order, made if there is none. -/
def openHub (orderID : UUID) : Heap δ × HubID :=
  match heap.hubFor orderID with
  | some hub => (heap, hub)
  | none =>
    ({ heap with
        hubs := heap.hubs ++ [(orderID, heap.nextHub)]
        subscribers := Function.update heap.subscribers heap.nextHub []
        nextHub := heap.nextHub + 1 }, heap.nextHub)

/-- A new subscriber joins a hub. -/
def join (hub : HubID) (authenticated : Bool) : Heap δ × SubID :=
  ({ heap with
      subscribers := Function.update heap.subscribers hub (heap.subscribers hub ++ [heap.nextSub])
      subs := Function.update heap.subs heap.nextSub { authenticated, events := [], closed := false }
      nextSub := heap.nextSub + 1 }, heap.nextSub)

/-- `delete(hub.subscribers, sub)` -/
def remove (hub : HubID) (sub : SubID) : Heap δ :=
  { heap with
    subscribers := Function.update heap.subscribers hub
      ((heap.subscribers hub).filter fun x => x != sub) }

/-- A subscriber leaves a hub, which may be empty then. -/
def leave (hub : HubID) (sub : SubID) : Heap δ × Bool :=
  let heap := heap.remove hub sub
  (heap, (heap.subscribers hub).isEmpty)

def setSub (sub : SubID) (s : Subscriber δ) : Heap δ :=
  { heap with subs := Function.update heap.subs sub s }

/-- `sub.close()` -/
def closeSub (sub : SubID) : Heap δ := heap.setSub sub (heap.subs sub).close

/-- The order's hub is forgotten, if it is still empty. -/
def forget (orderID : UUID) : Heap δ :=
  match heap.hubFor orderID with
  | none => heap
  | some current =>
    if (heap.subscribers current).isEmpty then
      { heap with hubs := heap.hubs.filter fun p => p.1 != orderID }
    else heap

/-- The inner loop of `Publish`, for one subscriber of the hub. -/
def sendTo (hub : HubID) (sub : SubID) (sent : Sent δ) : Heap δ :=
  if sent.dropped then (heap.remove hub sub).setSub sub sent.sub else heap.setSub sub sent.sub

/-- The loop of `Publish` over the subscribers of a hub, in the order the map yields them, and
whether a send panicked. -/
def deliver (hub : HubID) (events : List (Event δ)) (heap : Heap δ) : List SubID → Heap δ × Bool
  | [] => (heap, false)
  | sub :: rest =>
    let sent := (heap.subs sub).sendAll false events
    if sent.panicked then (heap.sendTo hub sub sent, true)
    else deliver hub events (heap.sendTo hub sub sent) rest

/-- Every hub is taken out of the registry. -/
def takeHubs : Heap δ × List HubID := ({ heap with hubs := [] }, heap.hubs.map Prod.snd)

/-- Every subscriber of a hub is taken out of it and closed. -/
def drain (hub : HubID) : Heap δ :=
  { heap with
    subscribers := Function.update heap.subscribers hub []
    subs := fun x => if (heap.subscribers hub).contains x then (heap.subs x).close else heap.subs x }

/-- A reader takes the oldest event out of its channel. -/
def receive (sub : SubID) : Heap δ := heap.setSub sub (heap.subs sub).receive

end Heap

/-! ## Calls side by side -/

/-- A subscriber that `Subscribe` has returned: for which order, and which hub it joined. -/
structure Returned where
  orderID : UUID
  sub : SubID
  hub : HubID
  deriving DecidableEq, Repr

/-- How far a call has come. What it has found so far is part of it. -/
inductive Call (δ : Type) where
  | idle
  /-- `Subscribe` has its hub and will join it -/
  | subscribing (orderID : UUID) (authenticated : Bool) (hub : HubID)
  /-- `Unsubscribe` has found a hub and will leave it -/
  | unsubscribing (orderID : UUID) (sub : SubID) (hub : HubID)
  /-- `Unsubscribe` has left the hub, empty or not, and will close the subscriber -/
  | closing (orderID : UUID) (sub : SubID) (empty : Bool)
  /-- `Unsubscribe` has found the hub empty and will look again -/
  | forgetting (orderID : UUID)
  /-- `Publish` has found a hub and will send; `known` had been returned when it began -/
  | publishing (orderID : UUID) (hub : HubID) (events : List (Event δ)) (known : List Returned)
  /-- `CloseAll` has taken the hubs and will drain these -/
  | draining (hubs : List HubID)

/-- The heap, the calls of each goroutine, and what has happened so far. -/
structure State (ι δ : Type) where
  heap : Heap δ
  calls : ι → Call δ
  returned : List Returned
  /-- whose `Unsubscribe` has passed the order's hub -/
  left : List SubID
  /-- the order a hub was made for -/
  orderOf : HubID → UUID
  /-- a `Publish` has sent on a closed channel -/
  panicked : Bool

namespace State

variable {ι δ : Type}

def start : State ι δ where
  heap := .empty
  calls := fun _ => .idle
  returned := []
  left := []
  orderOf := fun _ => ⟨0⟩
  panicked := false

variable [DecidableEq ι] (s : State ι δ)

/-- The state after a goroutine's section, with what is left of its call. -/
def goes (i : ι) (heap : Heap δ) (call : Call δ) : State ι δ :=
  { s with heap, calls := Function.update s.calls i call }

end State

/-- One section of a call, or a read. A call starts with its first section. -/
inductive Step {ι δ : Type} [DecidableEq ι] (s : State ι δ) : State ι δ → Prop where
  | subscribe {i : ι} (idle : s.calls i = .idle) (orderID : UUID) (authenticated : Bool) :
      Step s
        { s.goes i (s.heap.openHub orderID).1
            (.subscribing orderID authenticated (s.heap.openHub orderID).2) with
          orderOf := if (s.heap.hubFor orderID).isNone then
              Function.update s.orderOf s.heap.nextHub orderID
            else s.orderOf }
  | join {i : ι} {orderID : UUID} {authenticated : Bool} {hub : HubID}
      (call : s.calls i = .subscribing orderID authenticated hub) :
      Step s
        { s.goes i (s.heap.join hub authenticated).1 .idle with
          returned := ⟨orderID, (s.heap.join hub authenticated).2, hub⟩ :: s.returned }
  | unsubscribe {i : ι} (idle : s.calls i = .idle) {r : Returned} (returned : r ∈ s.returned)
      {hub : HubID} (found : s.heap.hubFor r.orderID = some hub) :
      Step s (s.goes i s.heap (.unsubscribing r.orderID r.sub hub))
  | unsubscribeNone {i : ι} (idle : s.calls i = .idle) {r : Returned} (returned : r ∈ s.returned)
      (none : s.heap.hubFor r.orderID = none) :
      Step s { s with left := r.sub :: s.left }
  | leave {i : ι} {orderID : UUID} {sub : SubID} {hub : HubID}
      (call : s.calls i = .unsubscribing orderID sub hub) :
      Step s
        { s.goes i (s.heap.leave hub sub).1 (.closing orderID sub (s.heap.leave hub sub).2) with
          left := sub :: s.left }
  | close {i : ι} {orderID : UUID} {sub : SubID} {empty : Bool}
      (call : s.calls i = .closing orderID sub empty) :
      Step s (s.goes i (s.heap.closeSub sub) (if empty then .forgetting orderID else .idle))
  | forget {i : ι} {orderID : UUID} (call : s.calls i = .forgetting orderID) :
      Step s (s.goes i (s.heap.forget orderID) .idle)
  | publish {i : ι} (idle : s.calls i = .idle) (orderID : UUID) {hub : HubID}
      (found : s.heap.hubFor orderID = some hub) (events : List (Event δ)) :
      Step s (s.goes i s.heap (.publishing orderID hub events s.returned))
  | deliver {i : ι} {orderID : UUID} {hub : HubID} {events : List (Event δ)} {known : List Returned}
      (call : s.calls i = .publishing orderID hub events known) {visit : List SubID}
      (order : visit.Perm (s.heap.subscribers hub)) :
      Step s
        { s.goes i (s.heap.deliver hub events visit).1 .idle with
          panicked := s.panicked || (s.heap.deliver hub events visit).2 }
  | closeAll {i : ι} (idle : s.calls i = .idle) :
      Step s (s.goes i s.heap.takeHubs.1 (.draining s.heap.takeHubs.2))
  | drain {i : ι} {hub : HubID} {rest : List HubID}
      (call : s.calls i = .draining (hub :: rest)) :
      Step s (s.goes i (s.heap.drain hub) (if rest.isEmpty then .idle else .draining rest))
  | drained {i : ι} (call : s.calls i = .draining []) : Step s (s.goes i s.heap .idle)
  | receive (sub : SubID) : Step s { s with heap := s.heap.receive sub }

end Doenerstag.Sse
