import Doenerstag.Db.Orders
import Doenerstag.Db.Sessions
import Mathlib.Data.Prod.Lex
import Mathlib.Order.Lex

/-!
# The list of orders (`internal/db/orders.go`)

`ListOrders`, and the part of an order that is for everybody: the columns `orderHeaderBody` is made
of. The database leaves open which of two orders with equal sort keys comes first; a `TieBreak` says
which.

* `Db.SameHeaders` — two databases whose orders agree on that part.
* `Db.orderByID_sameHeaders`, `Db.listOrders_sameHeaders` — **what is read of an order's header, one
  order or all of them, is the same in both.**
-/

namespace Doenerstag

open ReadCommitted

/-! ## Listing -/

/-- Which of two orders comes first that `ORDER BY` takes for equal. -/
structure TieBreak where
  rank : UUID → Nat
  injective : Function.Injective rank

/-- The order of the primary keys. -/
def TieBreak.byID : TieBreak where
  rank := UUID.n
  injective := fun _ _ h => congrArg UUID.mk h

/-- `o.deadline_at <= $1` -/
def Order.expiredAt (o : Order) (moment : Time) : Bool := o.deadlineAt ≤ moment

/-- `ORDER BY`: the open orders before the expired ones, the open ones by fulfilment time
ascending, the expired ones descending. -/
def listedBefore (ties : TieBreak) (moment : Time) (a b : Order) : Bool :=
  if a.expiredAt moment != b.expiredAt moment then !a.expiredAt moment
  else if a.fulfilmentAt = b.fulfilmentAt then ties.rank a.id < ties.rank b.id
  else if a.expiredAt moment then b.fulfilmentAt < a.fulfilmentAt
  else a.fulfilmentAt < b.fulfilmentAt

namespace Db

variable (db : Db)

/-- Every order, with its joins. -/
def orders : List Order := db.foodOrders.filterMap db.scanOrder

def listOrders (ties : TieBreak) (moment : Time) : List Order :=
  sliceStable (listedBefore ties (pgTime moment)) db.orders

end Db

inductive ListOrdersStmt where
  | now
  | list
  deriving DecidableEq, Repr

/-- `ListOrders` -/
def listOrders (ties : TieBreak) (now : Time) : DbProgram ListOrdersStmt (List Order) := do
  let moment ← stampAt .now now
  (query .list fun db => db.listOrders ties moment).mapError otherError

/-! ## The part of an order that is for everybody -/

/-- The columns of an order, of its restaurant and of its items that `orderHeaderBody` shows. -/
structure HeaderFields where
  id : UUID
  restaurantID : UUID
  restaurantName : String
  restaurantLogo : Option UUID
  fulfilment : String
  fulfilmentAt : Time
  deadlineAt : Time
  currencyCode : String
  minOrderValueCents : Option Int64
  deliveryFeeCents : Option Int64
  itemCount : Int64
  createdAt : Time
  updatedAt : Time
  deriving DecidableEq, Repr

def Order.headerFields (o : Order) : HeaderFields :=
  { id := o.id
    restaurantID := o.restaurantID
    restaurantName := o.restaurantName
    restaurantLogo := o.restaurantLogo
    fulfilment := o.fulfilment
    fulfilmentAt := o.fulfilmentAt
    deadlineAt := o.deadlineAt
    currencyCode := o.currencyCode
    minOrderValueCents := o.minOrderValueCents
    deliveryFeeCents := o.deliveryFeeCents
    itemCount := o.itemCount
    createdAt := o.createdAt
    updatedAt := o.updatedAt }

namespace Db

variable {db db' : Db}

/-- The same columns, from the tables. -/
def headerFields (db : Db) (o : FoodOrderRow) : Option HeaderFields := do
  let r ← db.restaurants.find? fun r => r.id == o.restaurantID
  return {
    id := o.id
    restaurantID := o.restaurantID
    restaurantName := r.name
    restaurantLogo := r.logoImageID
    fulfilment := o.fulfilment
    fulfilmentAt := o.fulfilmentAt
    deadlineAt := o.deadlineAt
    currencyCode := o.currencyCode
    minOrderValueCents := o.minOrderValueCents
    deliveryFeeCents := o.deliveryFeeCents
    itemCount := db.countOrderItems o.id
    createdAt := o.createdAt
    updatedAt := o.updatedAt }

/-- What the tables show to everybody. -/
def headers (db : Db) : List HeaderFields := db.foodOrders.filterMap db.headerFields

/-- The orders of the two databases agree on what they show to everybody. Whatever else is in the
tables, and in which order the rows lie, may differ. -/
def SameHeaders (db db' : Db) : Prop := db.headers.Perm db'.headers

theorem headerFields_id {o : FoodOrderRow} {f : HeaderFields} (h : db.headerFields o = some f) :
    f.id = o.id := by
  obtain ⟨r, -, hf⟩ := Option.bind_eq_some_iff.mp h
  cases hf
  rfl

/-- The join with the creator drops no order: every order has one. -/
theorem scanOrder_headerFields (hrefs : db.References) {o : FoodOrderRow} (ho : o ∈ db.foodOrders) :
    (db.scanOrder o).map Order.headerFields = db.headerFields o := by
  obtain ⟨u, hu⟩ : ∃ u, db.userByID o.creatorID = some u := by
    obtain ⟨u, hu, hid⟩ := hrefs.orderCreator o ho o.creatorID rfl
    have hsome : (db.userByID o.creatorID).isSome := by
      rw [userByID, List.find?_isSome]
      exact ⟨u, hu, by simpa using hid⟩
    exact Option.isSome_iff_exists.mp hsome
  unfold scanOrder headerFields
  cases db.restaurants.find? fun r => r.id == o.restaurantID with
  | none => rfl
  | some r =>
    show Option.map _ ((db.userByID o.creatorID).bind _) = _
    rw [hu]
    rfl

theorem orders_headerFields (hrefs : db.References) :
    db.orders.map Order.headerFields = db.headers := by
  rw [orders, headers, List.map_filterMap]
  exact List.filterMap_congr fun o ho => scanOrder_headerFields hrefs ho

/-- No two orders have the same id. -/
theorem headers_id (hkeys : db.Keys) : (db.headers.map HeaderFields.id).Nodup := by
  have hsub : (db.headers.map HeaderFields.id).Sublist (db.foodOrders.map FoodOrderRow.id) := by
    rw [headers]
    induction db.foodOrders with
    | nil => exact .refl _
    | cons o rest ih =>
      cases hf : db.headerFields o with
      | none =>
        rw [List.filterMap_cons_none hf]
        exact ih.cons _
      | some f =>
        rw [List.filterMap_cons_some hf, List.map_cons, List.map_cons, headerFields_id hf]
        exact ih.cons_cons _
  exact hkeys.foodOrders.sublist hsub

theorem headers_eq_of_id (hkeys : db.Keys) {f g : HeaderFields} (hf : f ∈ db.headers)
    (hg : g ∈ db.headers) (hid : f.id = g.id) : f = g :=
  List.inj_on_of_nodup_map (headers_id hkeys) hf hg hid

/-- What an order that is looked up shows is what the tables show of it. -/
theorem orderByID_headerFields (hvalid : db.Valid) {id : UUID} {f : HeaderFields} :
    (db.orderByID id).map Order.headerFields = some f ↔ f ∈ db.headers ∧ f.id = id := by
  have hscan : (db.orderByID id).map Order.headerFields = (db.foodOrder id).bind db.headerFields := by
    unfold orderByID
    cases ho : db.foodOrder id with
    | none => rfl
    | some o => exact scanOrder_headerFields hvalid.refs (List.mem_of_find?_eq_some ho)
  rw [hscan, headers, List.mem_filterMap]
  constructor
  · intro h
    obtain ⟨o, ho, hf⟩ := Option.bind_eq_some_iff.mp h
    refine ⟨⟨o, List.mem_of_find?_eq_some ho, hf⟩, ?_⟩
    rw [headerFields_id hf, db.foodOrder_id ho]
  · rintro ⟨⟨o, ho, hf⟩, hid⟩
    rw [headerFields_id hf] at hid
    have hfound : db.foodOrder id = some o := by
      rw [foodOrder, ← hid]
      exact Tables.find?_key hvalid.keys.foodOrders ho
    rw [hfound]
    exact hf

end Db

/-! ## Two databases that show the same -/

namespace Db

variable {db db' : Db}

/-- A lookup finds an order in both, showing the same, or in neither. -/
theorem orderByID_sameHeaders (hvalid : db.Valid) (hvalid' : db'.Valid)
    (hsame : db.SameHeaders db') (id : UUID) :
    (db.orderByID id).map Order.headerFields = (db'.orderByID id).map Order.headerFields := by
  apply Option.ext
  intro f
  rw [orderByID_headerFields hvalid, orderByID_headerFields hvalid', hsame.mem_iff]

/-- The item count of a header is the number of items of its order. -/
theorem headers_itemCount {f : HeaderFields} (hf : f ∈ db.headers) :
    f.itemCount = db.countOrderItems f.id := by
  obtain ⟨o, -, hfields⟩ := List.mem_filterMap.mp hf
  rw [headerFields_id hfields]
  obtain ⟨r, -, hr⟩ := Option.bind_eq_some_iff.mp hfields
  cases hr
  rfl

/-- An order with items has a header. -/
theorem countOrderItems_eq_zero (hvalid : db.Valid) {id : UUID}
    (hnone : ∀ f ∈ db.headers, f.id ≠ id) : db.countOrderItems id = 0 := by
  have hzero : db.orderItems.countP (fun i => i.orderID == id) = 0 := by
    rw [List.countP_eq_zero]
    intro i hi hid
    obtain ⟨o, ho, hoid⟩ := hvalid.refs.itemOrder i hi i.orderID rfl
    obtain ⟨r, hr, hrid⟩ := hvalid.refs.orderRestaurant o ho o.restaurantID rfl
    have hfound : (db.restaurants.find? fun r => r.id == o.restaurantID).isSome := by
      rw [List.find?_isSome]
      exact ⟨r, hr, by simpa using hrid⟩
    obtain ⟨r', hr'⟩ := Option.isSome_iff_exists.mp hfound
    obtain ⟨f, hf⟩ : ∃ f, db.headerFields o = some f :=
      ⟨_, by rw [headerFields, hr']; rfl⟩
    refine hnone f (List.mem_filterMap.mpr ⟨o, ho, hf⟩) ?_
    rw [headerFields_id hf, hoid]
    simpa using hid
  rw [countOrderItems, hzero]
  rfl

/-- **The number of items of an order is the same in both**, whichever order it is. -/
theorem countOrderItems_sameHeaders (hvalid : db.Valid) (hvalid' : db'.Valid)
    (hsame : db.SameHeaders db') (id : UUID) : db.countOrderItems id = db'.countOrderItems id := by
  by_cases h : ∃ f ∈ db.headers, f.id = id
  · obtain ⟨f, hf, rfl⟩ := h
    rw [← headers_itemCount hf, ← headers_itemCount (hsame.subset hf)]
  · have hnone : ∀ f ∈ db.headers, f.id ≠ id := fun f hf hid => h ⟨f, hf, hid⟩
    rw [countOrderItems_eq_zero hvalid hnone,
      countOrderItems_eq_zero hvalid' fun f hf => hnone f (hsame.symm.subset hf)]

/-- Where an order stands in the list: whether it has expired, when it is fulfilled, and how ties
are broken. -/
def listKey (ties : TieBreak) (moment : Time) (f : HeaderFields) : Bool ×ₗ Int ×ₗ Nat :=
  let expired : Bool := f.deadlineAt ≤ moment
  toLex (expired, toLex (if expired then -f.fulfilmentAt else f.fulfilmentAt, ties.rank f.id))

theorem listedBefore_iff (ties : TieBreak) (moment : Time) (a b : Order) :
    listedBefore ties moment a b = true ↔
      listKey ties moment a.headerFields < listKey ties moment b.headerFields := by
  have hkey : ∀ o : Order, listKey ties moment o.headerFields =
      toLex (o.expiredAt moment, toLex (if o.expiredAt moment then -o.fulfilmentAt else o.fulfilmentAt,
        ties.rank o.id)) := fun _ => rfl
  rw [hkey, hkey, Prod.Lex.toLex_lt_toLex, Prod.Lex.toLex_lt_toLex]
  unfold listedBefore
  generalize a.expiredAt moment = x, b.expiredAt moment = y, ties.rank a.id = m, ties.rank b.id = n
  by_cases htime : a.fulfilmentAt = b.fulfilmentAt
  · rcases x <;> rcases y <;> simp [htime]
  · rcases x <;> rcases y <;> simp [htime]

/-- **The list shows the same orders in the same places.** -/
theorem listOrders_sameHeaders (hvalid : db.Valid) (hvalid' : db'.Valid)
    (hsame : db.SameHeaders db') (ties : TieBreak) (moment : Time) :
    (db.listOrders ties moment).map Order.headerFields =
      (db'.listOrders ties moment).map Order.headerFields := by
  have hshown := orders_headerFields hvalid.refs
  have hshown' := orders_headerFields hvalid'.refs
  refine sliceStable_map_eq (listedBefore_iff ties (pgTime moment)) ?_ ?_
  · rw [hshown, hshown']
    exact hsame
  · rw [hshown]
    intro f hf g hg hkey
    have hrank : ties.rank f.id = ties.rank g.id := congrArg (fun k => (ofLex (ofLex k).2).2) hkey
    exact headers_eq_of_id hvalid.keys hf hg (ties.injective hrank)

end Db

end Doenerstag
