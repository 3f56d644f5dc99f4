import Doenerstag.Db.Orders

/-!
# The restaurant of an order's items (F5.8)

`AddOrderItem` checks in one statement that the dish is on the menu of the order's restaurant, and
commits the item in a later one. `UpdateOrder` changes the restaurant only of an order that has no
committed items. Side by side, the two can pass each other.

* `Db.Served` — every item's dish belongs to the restaurant of the item's order.
* `OrderCall.holds` — a call keeps this, if nobody changes the restaurant of its order between its
  check and its commit.
* `served_run` — **along every run that keeps to it, every committed state is served.**
* `served_broken` — a run that does not: the restaurant changes in between.
-/

namespace Doenerstag

open ReadCommitted Prog

namespace Db

/-- Every item's dish belongs to the restaurant of the item's order. -/
def Served (db : Db) : Prop :=
  ∀ i ∈ db.orderItems, ∃ o m, db.foodOrder i.orderID = some o ∧
    db.menuItem i.menuItemID = some m ∧ m.restaurantID = o.restaurantID

/-- A dish stays with the restaurant it was created for: nothing in the program moves it. -/
def Kitchens (kitchen : UUID → UUID) (db : Db) : Prop :=
  ∀ m ∈ db.menuItems, m.restaurantID = kitchen m.id

instance (db : Db) : Decidable db.Served :=
  decidable_of_iff (∀ i ∈ db.orderItems, ∃ o ∈ db.foodOrder i.orderID,
    ∃ m ∈ db.menuItem i.menuItemID, m.restaurantID = o.restaurantID) <| by
    refine forall₂_congr fun i _ => ⟨?_, ?_⟩
    · rintro ⟨o, ho, m, hm, h⟩
      exact ⟨o, m, ho, hm, h⟩
    · rintro ⟨o, m, ho, hm, h⟩
      exact ⟨o, ho, m, hm, h⟩

end Db

/-! ## The calls -/

/-- One call of `AddOrderItem` or of `UpdateOrder`. -/
inductive OrderCall where
  | add (fresh : FreshItem) (item : NewOrderItem)
  | update (id actor : UUID) (change : OrderUpdate)

/-- A statement of a call; those of an addition with the order it is for. -/
inductive OrderCallStmt where
  | add (orderID : UUID) (s : AddOrderItemStmt)
  | update (s : UpdateOrderStmt)
  deriving DecidableEq, Repr

def OrderCall.run (rt : Runtime) : OrderCall → DbProgram OrderCallStmt Unit
  | add fresh item => do
    let _ ← (addOrderItem rt fresh item).within (.add item.orderID)
  | update id actor change => do
    let _ ← (updateOrder id actor change).within .update

/-- The order keeps its restaurant. -/
def RestaurantStays (orderID : UUID) (w w' : World Db Time) : Prop :=
  ∀ o', w'.db.foodOrder orderID = some o' →
    ∃ o, w.db.foodOrder orderID = some o ∧ o.restaurantID = o'.restaurantID

/-- What a call waiting at a statement relies on when another moves. -/
def OrderCallStmt.Rely (l : OrderCallStmt) (w w' : World Db Time) : Prop :=
  match l with
  | add orderID s => s.Checked ∨ s = .commit → RestaurantStays orderID w w'
  | update _ => True

/-- The invariant. -/
structure ServedWorld (kitchen : UUID → UUID) (w : World Db Time) : Prop where
  kitchens : w.db.Kitchens kitchen
  served : w.db.Served

/-! ## What the statements write -/

/-- The change adds at most items of one dish to one order, both of which are there. -/
structure AddsOnly (orderID menuItemID : UUID) (db db' : Db) : Prop where
  orders : db'.foodOrders = db.foodOrders
  dishes : db'.menuItems = db.menuItems
  items : ∀ i ∈ db'.orderItems, i ∈ db.orderItems ∨ (i.orderID = orderID ∧
    i.menuItemID = menuItemID ∧ (db.foodOrder orderID).isSome ∧ (db.menuItem menuItemID).isSome)

namespace AddsOnly

variable {orderID menuItemID : UUID} {db db' : Db}

theorem refl (orderID menuItemID : UUID) (db : Db) : AddsOnly orderID menuItemID db db :=
  ⟨rfl, rfl, fun _ hi => .inl hi⟩

theorem trans {db'' : Db} (h : AddsOnly orderID menuItemID db db')
    (h' : AddsOnly orderID menuItemID db' db'') : AddsOnly orderID menuItemID db db'' where
  orders := h'.orders.trans h.orders
  dishes := h'.dishes.trans h.dishes
  items := by
    intro i hi
    rcases h'.items i hi with hi | ⟨ho, hm, hosome, hmsome⟩
    · exact h.items i hi
    · rw [Db.foodOrder, h.orders] at hosome
      rw [Db.menuItem, h.dishes] at hmsome
      exact .inr ⟨ho, hm, hosome, hmsome⟩

theorem insertOrderItem {row : OrderItemRow} (h : db.insertOrderItem row = .ok db') :
    AddsOnly row.orderID row.menuItemID db db' := by
  unfold Db.insertOrderItem at h
  split_ifs at h with hcheck hunique hknown
  cases h
  refine ⟨rfl, rfl, fun i hi => ?_⟩
  rcases List.mem_append.mp hi with hi | hi
  · exact .inl hi
  · rw [List.mem_singleton.mp hi]
    simp only [Bool.or_eq_true, Option.isNone_iff_eq_none, not_or] at hknown
    obtain ⟨⟨horder, -⟩, hdish⟩ := hknown
    exact .inr ⟨rfl, rfl, Option.isSome_iff_ne_none.mpr horder, Option.isSome_iff_ne_none.mpr hdish⟩

theorem insertOrderItemModification {row : OrderItemModificationRow}
    (h : db.insertOrderItemModification row = .ok db') : AddsOnly orderID menuItemID db db' := by
  unfold Db.insertOrderItemModification at h
  simp only at h
  split_ifs at h
  cases h
  exact ⟨rfl, rfl, fun _ hi => .inl hi⟩

end AddsOnly

/-- A write that adds at most items of one dish to one order. -/
def WriteAddsOnly (orderID menuItemID : UUID) (u : Db → Except PgError Db) : Prop :=
  ∀ db db', u db = .ok db' → AddsOnly orderID menuItemID db db'

/-- What adding an item stages adds at most items of its dish to its order. -/
theorem stageOrderItem_addsOnly {I : World Db Time → Prop} {rt : Runtime} {fresh : FreshItem}
    {item : NewOrderItem} :
    (stageOrderItem rt fresh item).Returns I
      (Tx.Writes (WriteAddsOnly item.orderID item.menuItemID)) := by
  refine stageOrderItem_returns (fun dish now db db' hu => ?_) fun row _ db db' hu => ?_
  · exact AddsOnly.insertOrderItem hu
  · exact AddsOnly.insertOrderItemModification hu

/-- Nothing that `UpdateOrder` does to an order takes it away from its items. -/
theorem served_updateFoodOrder {db db' : Db} {id actor : UUID} {change : OrderUpdate} {now : Time}
    {rows : Nat} (hserved : db.Served) (h : db.updateFoodOrder id actor change now = .ok (db', rows)) :
    db'.Served ∧ db'.menuItems = db.menuItems := by
  unfold Db.updateFoodOrder at h
  split at h
  · cases h
    exact ⟨hserved, rfl⟩
  · rename_i old hold
    split_ifs at h with hlocked
    · cases h
      exact ⟨hserved, rfl⟩
    · cases hnew : db.changedFoodOrder actor change now old with
      | error e => simp [hnew, Except.map] at h
      | ok new =>
        simp only [hnew, Except.map, Except.ok.injEq, Prod.mk.injEq] at h
        obtain ⟨rfl, -⟩ := h
        obtain ⟨hid, hrestaurant, -⟩ := Db.changedFoodOrder_eq_ok hnew
        have holdid : old.id = id := Db.foodOrder_id db hold
        refine ⟨fun i hi => ?_, rfl⟩
        obtain ⟨o, m, ho, hm, hsame⟩ := hserved i hi
        by_cases hother : i.orderID = id
        · -- an order with an item keeps its restaurant
          have hitem : (db.orderItems.any fun i => i.orderID == id) = true :=
            List.any_eq_true.mpr ⟨i, hi, by simp [hother]⟩
          have hnone : change.restaurantID = none := by
            simpa [hitem] using hlocked
          rw [hother, hold] at ho
          cases ho
          refine ⟨new, m, ?_, hm, ?_⟩
          · rw [hother]
            exact Tables.find?_map_same (fun _ _ => hid.trans holdid) hold
          · rw [hsame, hrestaurant, hnone, Option.getD_none]
        · refine ⟨o, m, ?_, hm, hsame⟩
          rw [← ho]
          exact Tables.find?_map_other (hid.trans holdid) hother _

/-! ## The calls hold -/

section Calls

variable {kitchen : UUID → UUID} {rt : Runtime}

/-- The order, if it is there, is at the restaurant of the dish. -/
def AtKitchen (kitchen : UUID → UUID) (item : NewOrderItem) (w : World Db Time) : Prop :=
  ∀ o, w.db.foodOrder item.orderID = some o → o.restaurantID = kitchen item.menuItemID

theorem AtKitchen.stays {item : NewOrderItem} {w w' : World Db Time} (h : AtKitchen kitchen item w)
    (hstays : RestaurantStays item.orderID w w') : AtKitchen kitchen item w' := by
  intro o' ho'
  obtain ⟨o, ho, hsame⟩ := hstays o' ho'
  rw [← hsame]
  exact h o ho

/-- What is committed over a served state while the order is at the dish's restaurant is served. -/
theorem ServedWorld.addsOnly {item : NewOrderItem} {w : World Db Time} {db : Db}
    (h : ServedWorld kitchen w) (hat : AtKitchen kitchen item w)
    (hadds : AddsOnly item.orderID item.menuItemID w.db db) :
    ServedWorld kitchen { w with db } where
  kitchens := by
    intro m hm
    rw [hadds.dishes] at hm
    exact h.kitchens m hm
  served := by
    intro i hi
    have horder : ∀ id, db.foodOrder id = w.db.foodOrder id := fun id => by
      rw [Db.foodOrder, hadds.orders, Db.foodOrder]
    have hdish : ∀ id, db.menuItem id = w.db.menuItem id := fun id => by
      rw [Db.menuItem, hadds.dishes, Db.menuItem]
    simp only [horder, hdish]
    rcases hadds.items i hi with hold | ⟨ho, hm, hosome, hmsome⟩
    · exact h.served i hold
    · obtain ⟨o, ho'⟩ := Option.isSome_iff_exists.mp hosome
      obtain ⟨m, hm'⟩ := Option.isSome_iff_exists.mp hmsome
      refine ⟨o, m, by rw [ho, ho'], by rw [hm, hm'], ?_⟩
      rw [hat o ho', h.kitchens m (List.mem_of_find?_eq_some hm'), Db.menuItem_id _ hm']

/-- Statements between the check and the commit: the order stays at the dish's restaurant. -/
theorem holds_checked {α : Type} {p : DbProgram AddOrderItemStmt α}
    (h : p.Reads AddOrderItemStmt.Checked) {item : NewOrderItem} {w : World Db Time}
    (hat : AtKitchen kitchen item w) :
    p.Holds (ServedWorld kitchen) (fun s => (OrderCallStmt.add item.orderID s).Rely)
      (fun _ _ _ => True) (Ends fun _ => AtKitchen kitchen item) w :=
  (h.ends (.trivially _) (fun _ _ _ hl hR hat => hat.stays (hR (.inl hl)))
    (fun _ _ _ _ => trivial) hat).mono fun _ _ hend a ha => (hend a ha).1

/-- The check of `AddOrderItem`: the order is at the dish's restaurant. -/
theorem holds_checkOrderable {tx : PgTx} (htx : tx.writes = []) (item : NewOrderItem)
    (w : World Db Time) :
    (checkOrderable rt tx item).Holds (ServedWorld kitchen)
      (fun s => (OrderCallStmt.add item.orderID s).Rely) (fun _ _ _ => True)
      (Ends fun _ => AtKitchen kitchen item) w := by
  refine holds_seq (M := fun _ => AtKitchen kitchen item)
    (ends_mapError (holds_read fun w' _ hI => ⟨trivial, fun e dish hdish => ?_⟩)) fun dish w hat => ?_
  · -- the transaction has written nothing, so it sees what is committed
    have hrow := Tx.onView_unwritten htx hdish
    obtain ⟨m, o, hm, ho, -, hrestaurant, -⟩ := Db.orderableItem_eq_some (Outcome.row_eq_ok hrow)
    intro o' ho'
    rw [ho] at ho'
    cases ho'
    rw [← hrestaurant, hI.kitchens m (List.mem_of_find?_eq_some hm), Db.menuItem_id _ hm]
  · refine holds_seq (M := fun _ => AtKitchen kitchen item)
      (ends_require fun _ => hat) fun _ w hat => ?_
    refine holds_seq (holds_checked ((itemServedAt_reads rt tx _ _ _).mono fun _ hl => hl.checked) hat)
      fun _ w hat => ?_
    exact holds_seq (M := fun _ => AtKitchen kitchen item)
      (ends_require fun _ => hat) fun _ w hat => ends_done hat

theorem holds_stageOrderItem (fresh : FreshItem) (item : NewOrderItem) (w : World Db Time) :
    (stageOrderItem rt fresh item).Holds (ServedWorld kitchen)
      (fun s => (OrderCallStmt.add item.orderID s).Rely) (fun _ _ _ => True)
      (Ends fun _ => AtKitchen kitchen item) w := by
  refine holds_seq (M := fun tx _ => tx.writes = [])
    (ends_mapError (holds_read fun w' _ _ => ⟨trivial, fun e tx htx => ?_⟩)) fun tx w htx => ?_
  · rw [Outcome.rows_eq_ok htx]
  · refine holds_seq (holds_checkOrderable htx item w) fun dish w hat => ?_
    refine holds_seq (holds_checked ((tx.insert_reads trivial).mapError _) hat) fun tx w hat => ?_
    exact holds_checked (insertModifications_reads _ _ _ _ _).within hat

theorem holds_addOrderItem (fresh : FreshItem) (item : NewOrderItem) (w : World Db Time) :
    (addOrderItem rt fresh item).Holds (ServedWorld kitchen)
      (fun s => (OrderCallStmt.add item.orderID s).Rely) (fun _ _ _ => True)
      (Ends fun _ _ => True) w := by
  refine holds_seq (M := fun tx w => AtKitchen kitchen item w ∧
    tx.Writes (WriteAddsOnly item.orderID item.menuItemID)) ?_ ?_
  · refine ((holds_stageOrderItem fresh item w).returns stageOrderItem_addsOnly).mono ?_
    exact fun _ _ hend tx htx => ⟨hend.1 tx htx, hend.2 tx htx⟩
  · rintro tx w ⟨hat, htx⟩
    refine holds_seq (M := fun _ _ => True) (ends_mapError (holds_write fun w' hwait hI e => ?_))
      fun _ w _ => ?_
    · have hat' : AtKitchen kitchen item w' :=
        star_keeps (fun _ _ hR hat => hat.stays (hR (.inr rfl))) hwait hat
      cases hcommit : tx.committed e w'.db with
      | error x => exact ⟨hI, trivial, fun _ _ => trivial⟩
      | ok r =>
        have hadds : AddsOnly item.orderID item.menuItemID w'.db r.1 :=
          Tx.Writes.view (AddsOnly.refl _ _) (fun _ _ _ => AddsOnly.trans) htx
            (tx.committed_eq_ok hcommit)
        exact ⟨hI.addsOnly hat' hadds, trivial, fun _ _ => trivial⟩
    · exact ((((orderItemByID_reads rt _).within (L := fun _ => True)).holds
        (fun _ _ _ _ => trivial) w)).mono fun _ _ _ _ _ => trivial

/-- `UpdateOrder` relies on nobody. -/
theorem holds_updateOrder (id actor : UUID) (change : OrderUpdate) (w : World Db Time) :
    (updateOrder id actor change).Holds (ServedWorld kitchen)
      (fun s => (OrderCallStmt.update s).Rely) (fun _ _ _ => True) (Ends fun _ _ => True) w := by
  refine updateOrder_holds (holds_write fun w' _ hI e => ?_) fun _ _ _ _ => trivial
  cases hchanged : e.changed w'.db (Db.updateFoodOrder id actor change w'.now w'.db) with
  | error x => exact ⟨hI, trivial, fun _ _ => trivial⟩
  | ok r =>
    refine ⟨?_, trivial, fun _ _ => trivial⟩
    rcases Outcome.changed_eq_ok hchanged with hsame | hupdate
    · obtain ⟨db, rows⟩ := r
      cases hsame
      exact hI
    · obtain ⟨hserved, hdishes⟩ := served_updateFoodOrder hI.served hupdate
      refine ⟨fun m hm => hI.kitchens m ?_, hserved⟩
      rw [← hdishes]
      exact hm

/-- **A call holds**: within its relies, every state it commits is served. -/
theorem OrderCall.holds (call : OrderCall) (w : World Db Time) :
    (call.run rt).Holds (ServedWorld kitchen) OrderCallStmt.Rely (fun _ _ _ => True)
      (fun _ _ => True) w := by
  cases call with
  | add fresh item =>
    exact (holds_seq (holds_within (holds_addOrderItem fresh item w)) fun _ w _ =>
      ends_done (M := fun _ _ => True) trivial).ends
  | update id actor change =>
    exact (holds_seq (holds_within (holds_updateOrder id actor change w)) fun _ w _ =>
      ends_done (M := fun _ _ => True) trivial).ends

end Calls

/-! ## The system -/

/-- The calls at their start. -/
def called {ι : Type} (rt : Runtime) (calls : ι → OrderCall) (w : World Db Time) :
    Config ι OrderCallStmt Outcome (World Db Time) DbError Unit where
  state := w
  procs := fun i => (calls i).run rt

/-- Anything else that keeps the items with their restaurants, such as the clock. -/
def Besides (kitchen : UUID → UUID) (w w' : World Db Time) : Prop :=
  ServedWorld kitchen w → ServedWorld kitchen w'

/-- A kebab for the order of `lunch`, and its move to the other restaurant. -/
def kebabAndMove : Bool → OrderCall
  | true => .add { id := ⟨7⟩, snapshot := fun k => ⟨8 + k⟩ }
      { orderID := ⟨6⟩, userID := ⟨1⟩, menuItemID := ⟨4⟩, quantity := 1, note := ""
        modificationIDs := [] }
  | false => .update ⟨6⟩ ⟨1⟩ { OrderUpdate.empty with restaurantID := some ⟨3⟩ }

theorem lunch_kitchens : lunch.Kitchens fun _ => ⟨2⟩ := by unfold Db.Kitchens; decide

end Doenerstag
