import Doenerstag.Api.Orders
import Doenerstag.Db.OrderList
import Doenerstag.Lib.TwoRuns

/-!
# Reading orders (`internal/api/orders.go`)

`list` and `get`, which answer an anonymous caller with headers and an authenticated one with more.
Every header looks at the clock for the status.
-/

namespace Doenerstag

open ReadCommitted

inductive OrderReadStmt where
  | now
  /-- the look at the clock in `publicHeader` -/
  | header
  | list (s : ListOrdersStmt)
  | order (s : OrderStmt)
  | detail (s : DetailStmt)
  deriving DecidableEq, Repr

inductive OrderReadResponse where
  | headers (orders : List OrderHeaderBody)
  | entries (orders : List OrderListEntry)
  | header (body : OrderHeaderBody)
  | detail (response : OrderResponse)
  deriving DecidableEq, Repr

namespace OrderHandlers

variable (h : OrderHandlers)

/-- `publicHeader`, with its look at the clock. -/
def headerNow (order : Order) : Handler OrderReadStmt OrderHeaderBody := do
  let now ← clock .header
  pure (publicHeader h.rt now order)

/-- `listEntry`, with the same. -/
def entryNow (order : Order) : Handler OrderReadStmt OrderListEntry := do
  let now ← clock .header
  pure (listEntry h.rt now order)

def list (ties : TieBreak) (r : Request Unit) : Handler OrderReadStmt OrderReadResponse := do
  let now ← clock .now
  let orders ← ((listOrders ties now).within .list).mapError databaseUnavailable
  match r.principal with
  | none =>
    let bodies ← orders.mapM h.headerNow
    pure (.headers bodies)
  | some _ =>
    let bodies ← orders.mapM h.entryNow
    pure (.entries bodies)

def get (r : Request Unit) : Handler OrderReadStmt OrderReadResponse := do
  let order ← (h.lookupOrder r).within .order
  match r.principal with
  | none =>
    let body ← h.headerNow order
    pure (.header body)
  | some _ =>
    let detail ← (h.writeDetail order 200).within .detail
    pure (.detail detail)

end OrderHandlers

/-! ## Anonymous callers -/

/-- The same moment, and orders that show the same to everybody. -/
structure SameView (w w' : World Db Time) : Prop where
  now : w.now = w'.now
  valid : w.db.Valid
  valid' : w'.db.Valid
  headers : w.db.SameHeaders w'.db

/-- Two orders that show the same have the same header. -/
theorem publicHeader_congr (rt : Runtime) (now : Time) {o o' : Order}
    (h : o.headerFields = o'.headerFields) : publicHeader rt now o = publicHeader rt now o' := by
  have htitle : o.title rt = o'.title rt := by
    have hname : o.restaurantName = o'.restaurantName := congrArg HeaderFields.restaurantName h
    have htime : o.fulfilmentAt = o'.fulfilmentAt := congrArg HeaderFields.fulfilmentAt h
    rw [Order.title, Order.title, hname, htime]
  have hstatus : o.status now = o'.status now := by
    have hdeadline : o.deadlineAt = o'.deadlineAt := congrArg HeaderFields.deadlineAt h
    rw [Order.status, Order.status, Order.active, Order.active, hdeadline]
  simp only [Order.headerFields, HeaderFields.mk.injEq] at h
  simp only [publicHeader, htitle, hstatus, h]

namespace OrderHandlers

variable (h : OrderHandlers)

theorem headerNow_alike {o o' : Order} (hsame : o.headerFields = o'.headerFields) :
    Prog.Alike SameView (· = ·) (h.headerNow o) (h.headerNow o') := by
  refine (alike_clock fun w w' hview => hview.now).bind fun now now' hnow => .done ?_
  rw [hnow]
  exact publicHeader_congr h.rt now' hsame

theorem listOrders_alike (ties : TieBreak) (now : Time) :
    Prog.Alike SameView (List.Forall₂ fun o o' => o.headerFields = o'.headerFields)
      (listOrders ties now) (listOrders ties now) := by
  have hstamp : Prog.Alike SameView (· = ·) (stampAt ListOrdersStmt.now now : DbProgram _ Time)
      (stampAt ListOrdersStmt.now now) := by
    unfold stampAt
    split_ifs
    · exact alike_clock fun w w' hview => hview.now
    · exact .done rfl
  refine hstamp.bind fun moment moment' hmoment => ?_
  subst hmoment
  refine (alike_query fun w w' hview => ?_).mapError _
  have hlists := Db.listOrders_sameHeaders hview.valid hview.valid' hview.headers ties moment
  rw [← List.forall₂_eq_eq_eq, List.forall₂_map_left_iff, List.forall₂_map_right_iff] at hlists
  exact hlists

/-- **An anonymous caller is shown the same list.** -/
theorem list_alike (ties : TieBreak) {r : Request Unit} (hanonymous : r.principal = none) :
    Prog.Alike SameView (· = ·) (h.list ties r) (h.list ties r) := by
  refine (alike_clock fun w w' hview => hview.now).bind fun now now' hnow => ?_
  subst hnow
  refine (((listOrders_alike ties now).within _ _).mapError _).bind fun orders orders' hsame => ?_
  rw [hanonymous]
  refine (Prog.Alike.mapM (fun o o' ho => h.headerNow_alike ho) hsame).bind fun bodies bodies' hb => ?_
  rw [List.forall₂_eq_eq_eq] at hb
  exact .done (congrArg _ hb)

theorem orderByID_alike {ℓ : Type} (l : ℓ) (id : UUID) :
    Prog.Alike SameView (fun o o' => o.headerFields = o'.headerFields)
      (orderByID l id) (orderByID l id) := by
  refine (alike_queryRow fun w w' hview => ?_).mapError _
  have hfound := Db.orderByID_sameHeaders hview.valid hview.valid' hview.headers id
  revert hfound
  generalize w.db.orderByID id = found, w'.db.orderByID id = found'
  intro hfound
  cases found with
  | none =>
    cases found' with
    | none => exact .none
    | some o' => cases hfound
  | some o =>
    cases found' with
    | none => cases hfound
    | some o' => exact .some (Option.some.inj hfound)

/-- **An anonymous caller is shown the same order.** -/
theorem get_alike {r : Request Unit} (hanonymous : r.principal = none) :
    Prog.Alike SameView (· = ·) (h.get r) (h.get r) := by
  have hlookup : Prog.Alike SameView (fun o o' => o.headerFields = o'.headerFields)
      (h.lookupOrder r) (h.lookupOrder r) := by
    unfold lookupOrder loadParam
    cases h.rt.parseUUID r.id with
    | none => exact .fail _
    | some id => exact (orderByID_alike OrderStmt.order id).mapError _
  refine (hlookup.within _ _).bind fun o o' hsame => ?_
  rw [hanonymous]
  refine (h.headerNow_alike hsame).bind fun body body' hbody => .done ?_
  rw [hbody]

end OrderHandlers

end Doenerstag
