import Doenerstag.Db.Orders

/-!
# What a write to one order leaves alone

`Db.frozen` is what F6.6 makes read-only when an order closes. An item's identifier is generated
once, for one order; `owner` says for which, and `Db.Owned` that the tables agree.

* `Db.Within` — a change of the tables that stays within one order.
* `Db.Within.insertOrderItem`, … — **each write of an item or an order stays within its order.**
-/

namespace Doenerstag

open Tables

structure FrozenItem where
  id : UUID
  quantity : Int64
  note : Option String
  modifications : List OrderItemModificationRow
  deriving DecidableEq, Repr

structure FrozenHeader where
  restaurantID : UUID
  fulfilment : String
  fulfilmentAt : Time
  deadlineAt : Time
  moneyCollectorID : Option UUID
  pickupPersonID : Option UUID
  deriving DecidableEq, Repr

/-- The items of an order, with their quantities, notes and modifications, and the order's
restaurant, fulfilment, times and job holders. -/
structure Frozen where
  items : List FrozenItem
  header : Option FrozenHeader
  deriving DecidableEq, Repr

def FoodOrderRow.frozen (o : FoodOrderRow) : FrozenHeader :=
  { restaurantID := o.restaurantID
    fulfilment := o.fulfilment
    fulfilmentAt := o.fulfilmentAt
    deadlineAt := o.deadlineAt
    moneyCollectorID := o.moneyCollectorID
    pickupPersonID := o.pickupPersonID }

namespace Db

def frozenItem (db : Db) (i : OrderItemRow) : FrozenItem :=
  { id := i.id
    quantity := i.quantity
    note := i.note
    modifications := db.modificationsOf i.id }

def frozen (db : Db) (orderID : UUID) : Frozen :=
  { items := (db.itemsOf orderID).map db.frozenItem
    header := (db.foodOrder orderID).map FoodOrderRow.frozen }

/-- Every item is in the order its identifier was generated for. -/
def Owned (owner : UUID → UUID) (db : Db) : Prop := ∀ i ∈ db.orderItems, i.orderID = owner i.id

/-- The change stays within an order. -/
structure Within (owner : UUID → UUID) (orderID : UUID) (db db' : Db) : Prop where
  owned : db.Owned owner → db'.Owned owner
  others : db.Owned owner → ∀ o, o ≠ orderID → db'.frozen o = db.frozen o

variable {owner : UUID → UUID} {orderID : UUID} {db db' : Db}

theorem Owned.itemsOf (h : db.Owned owner) {o : UUID} {i : OrderItemRow} (hi : i ∈ db.itemsOf o) :
    owner i.id = o := by
  obtain ⟨hmem, heq⟩ := List.mem_filter.mp hi
  rw [← h i hmem]
  exact eq_of_beq heq

theorem frozen_congr {o : UUID} (hitems : db'.itemsOf o = db.itemsOf o)
    (hmods : ∀ i ∈ db.itemsOf o, db'.modificationsOf i.id = db.modificationsOf i.id)
    (horder : db'.foodOrder o = db.foodOrder o) : db'.frozen o = db.frozen o := by
  unfold frozen
  rw [hitems, horder]
  congr 1
  refine List.map_congr_left fun i hi => ?_
  unfold frozenItem
  rw [hmods i hi]

namespace Within

theorem refl (owner : UUID → UUID) (orderID : UUID) (db : Db) : Within owner orderID db db :=
  ⟨id, fun _ _ _ => rfl⟩

theorem trans {db'' : Db} (h : Within owner orderID db db') (h' : Within owner orderID db' db'') :
    Within owner orderID db db'' :=
  ⟨fun hown => h'.owned (h.owned hown),
    fun hown o ho => (h'.others (h.owned hown) o ho).trans (h.others hown o ho)⟩

/-- A change of the items and their snapshots that leaves the other orders' alone. -/
theorem of_items (howned : db.Owned owner → db'.Owned owner) (horders : db'.foodOrders = db.foodOrders)
    (hitems : db.Owned owner → ∀ o, o ≠ orderID → db'.itemsOf o = db.itemsOf o)
    (hmods : ∀ id, owner id ≠ orderID → db'.modificationsOf id = db.modificationsOf id) :
    Within owner orderID db db' where
  owned := howned
  others := by
    intro hown o ho
    refine frozen_congr (hitems hown o ho) (fun i hi => hmods i.id ?_) ?_
    · rw [hown.itemsOf hi]
      exact ho
    · rw [foodOrder, foodOrder, horders]

theorem insertOrderItem {row : OrderItemRow} (hrow : owner row.id = row.orderID)
    (h : db.insertOrderItem row = .ok db') : Within owner row.orderID db db' := by
  unfold Db.insertOrderItem at h
  split_ifs at h
  cases h
  refine of_items (fun hown i hi => ?_) rfl (fun _ o ho => ?_) fun _ _ => rfl
  · rcases List.mem_append.mp hi with hi | hi
    · exact hown i hi
    · rw [List.mem_singleton.mp hi, hrow]
  · rw [itemsOf, setOrderItems_orderItems, List.filter_append, itemsOf]
    simp [Ne.symm ho]

theorem insertOrderItemModification {row : OrderItemModificationRow}
    (h : db.insertOrderItemModification row = .ok db') :
    Within owner (owner row.orderItemID) db db' := by
  unfold Db.insertOrderItemModification at h
  simp only at h
  split_ifs at h
  cases h
  refine of_items id rfl (fun _ _ _ => rfl) fun id hid => ?_
  have hother : row.orderItemID ≠ id := fun heq => hid (by rw [heq])
  rw [modificationsOf, setOrderItemModifications_orderItemModifications, List.filter_append,
    modificationsOf]
  simp [hother]

/-- Updating the row of an item that keeps its identifier and its order. -/
theorem updateOrderItem {id actor : UUID} {f : OrderItemRow → OrderItemRow} {now : Time}
    (hid : ∀ i, (f i).id = i.id) (horder : ∀ i, (f i).orderID = i.orderID)
    (h : db.updateOrderItem id actor f now = .ok db') : Within owner (owner id) db db' := by
  have hupdate : ∀ i : OrderItemRow, (i.update actor now f).id = i.id ∧
      (i.update actor now f).orderID = i.orderID := by
    intro i
    unfold OrderItemRow.update
    split_ifs
    · exact ⟨rfl, rfl⟩
    · exact ⟨hid i, horder i⟩
  unfold Db.updateOrderItem at h
  split at h
  · cases h
    exact .refl _ _ _
  · split_ifs at h
    cases h
    refine of_items (fun hown i hi => ?_) rfl (fun hown o ho => ?_) fun _ _ => rfl
    · obtain ⟨j, hj, rfl⟩ := List.mem_map.mp hi
      split_ifs
      · rw [(hupdate j).1, (hupdate j).2]
        exact hown j hj
      · exact hown j hj
    · refine filter_map_untouched (fun j _ => ?_) fun j hj hsel => ?_
      · split_ifs
        · rw [(hupdate j).2]
        · rfl
      · -- an item of another order is another item
        have howner : owner j.id = o := hown.itemsOf (List.mem_filter.mpr ⟨hj, hsel⟩)
        rw [if_neg]
        intro heq
        exact ho (by rw [← howner, eq_of_beq heq])

theorem deleteOrderItemModifications {id : UUID} {seen : List UUID}
    (h : db.deleteOrderItemModifications id seen = .ok db') : Within owner (owner id) db db' := by
  cases h
  refine of_items (fun hown => hown) rfl (fun _ _ _ => rfl) fun other hother => ?_
  rw [modificationsOf, setOrderItemModifications_orderItemModifications, List.filter_filter,
    modificationsOf]
  refine List.filter_congr fun m _ => ?_
  cases hm : m.orderItemID == other with
  | false => rfl
  | true =>
    have hne : (m.orderItemID == id) = false := by
      rw [eq_of_beq hm]
      exact beq_false_of_ne fun heq => hother (by rw [heq])
    simp [hne]

theorem deleteOrderItem {id : UUID} {rows : Nat} (h : db.deleteOrderItem id = .ok (db', rows)) :
    Within owner (owner id) db db' := by
  cases h
  refine of_items (fun hown i hi => ?_) rfl (fun hown o ho => ?_) fun other hother => ?_
  · rw [deleteOrderItems_orderItems, mem_keep] at hi
    exact hown i hi.1
  · rw [itemsOf, deleteOrderItems_orderItems]
    refine filter_keep fun i hi hsel => beq_false_of_ne fun heq => ho ?_
    rw [← hown.itemsOf (List.mem_filter.mpr ⟨hi, hsel⟩), heq]
  · rw [modificationsOf, deleteOrderItems_orderItemModifications]
    refine filter_keep fun m _ hsel => dangling_eq_false.mpr fun k hk => ?_
    cases hk
    refine gone_eq_false.mpr fun i _ hi => beq_false_of_ne fun heq => hother ?_
    rw [← eq_of_beq hsel, ← hi, heq]

theorem updateFoodOrder {id actor : UUID} {change : OrderUpdate} {now : Time} {rows : Nat}
    (h : db.updateFoodOrder id actor change now = .ok (db', rows)) : Within owner id db db' := by
  unfold Db.updateFoodOrder at h
  split at h
  · cases h
    exact .refl _ _ _
  · rename_i o ho
    split_ifs at h
    · cases h
      exact .refl _ _ _
    · cases hnew : db.changedFoodOrder actor change now o with
      | error e => simp [hnew, Except.map] at h
      | ok new =>
        have hid : new.id = id := (changedFoodOrder_eq_ok hnew).1.trans (foodOrder_id _ ho)
        simp only [hnew, Except.map, Except.ok.injEq, Prod.mk.injEq] at h
        obtain ⟨rfl, -⟩ := h
        refine ⟨fun hown => hown, fun _ o' ho' => frozen_congr rfl (fun _ _ => rfl) ?_⟩
        exact find?_map_other hid ho' _

end Within

/-- A write that stays within an order. -/
def StaysWithin (owner : UUID → UUID) (orderID : UUID) (u : Db → Except PgError Db) : Prop :=
  ∀ db db', u db = .ok db' → Within owner orderID db db'

end Db

open ReadCommitted Db

variable {owner : UUID → UUID} {orderID : UUID} {I : World Db Time → Prop}

/-- **A transaction all of whose writes stay within an order stays within it.** -/
theorem staysWithin_view {tx : PgTx} (h : tx.Writes (StaysWithin owner orderID)) {db db' : Db}
    (hview : tx.view db = .ok db') : Within owner orderID db db' :=
  Tx.Writes.view (Within.refl owner orderID) (fun _ _ _ => Within.trans) h hview

/-- A statement on the pool does what its update does, or nothing. -/
theorem changed_within {e : Outcome} {db db' : Db} {u : Except PgError (Db × Nat)} {rows : Nat}
    (hu : ∀ db' rows, u = .ok (db', rows) → Within owner orderID db db')
    (h : e.changed db u = .ok (db', rows)) : Within owner orderID db db' := by
  rcases Outcome.changed_eq_ok h with rfl | hupdate
  · exact .refl _ _ _
  · exact hu _ _ hupdate

/-- What adding an item stages stays within the order the identifier was generated for. -/
theorem stageOrderItem_within {rt : Runtime} {fresh : FreshItem} {item : NewOrderItem}
    (hfresh : owner fresh.id = item.orderID) :
    (stageOrderItem rt fresh item).Returns I (Tx.Writes (StaysWithin owner item.orderID)) := by
  refine stageOrderItem_returns (fun dish now db db' hu => ?_) fun row hrow db db' hu => ?_
  · exact Within.insertOrderItem hfresh hu
  · rw [← hfresh, ← hrow]
    exact Within.insertOrderItemModification hu

/-- What changing an item stages stays within its order. -/
theorem stageOrderItemUpdate_within {fresh : FreshItem} {id : UUID} {change : OrderItemUpdate}
    {actor : UUID} :
    (stageOrderItemUpdate fresh id change actor).Returns I
      (Tx.Writes (StaysWithin owner (owner id))) := by
  refine stageOrderItemUpdate_returns (fun q now db db' hu => ?_) (fun note now db db' hu => ?_)
    (fun seen db db' hu => ?_) fun row hrow db db' hu => ?_
  · exact Within.updateOrderItem (f := setQuantity q) (fun _ => rfl) (fun _ => rfl) hu
  · exact Within.updateOrderItem (f := setNote note) (fun _ => rfl) (fun _ => rfl) hu
  · exact Within.deleteOrderItemModifications hu
  · rw [← hrow]
    exact Within.insertOrderItemModification hu

end Doenerstag
