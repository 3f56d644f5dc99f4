import Doenerstag.Api.Summary
import Doenerstag.Db.DeletionImpact

/-!
# What stays when an account goes

A deletion takes the items of the account out of the orders that are still open, and hands whatever
else it leaves behind to the placeholder. It must not touch what others ordered, nor what an order
that is over came to.

* `Db.summary` — the summary of an order, on one state of the tables.
* `OrderItem.food` — an item without its owner: all that `aggregate` and the totals look at.
* `Db.AccountGone` — what the rows of the tables become, whichever statements found rows.
* `deleteAccount_history` — **the history stays as it is**, and a deletion that fails changes nothing.
-/

namespace Doenerstag

open ReadCommitted Prog Tables GroupFold

/-! ## The summary of an order -/

/-- `ExternalIDsForItems`, of the dishes that are still on the menu. -/
def Db.externalIDsForItems (db : Db) (ids : List UUID) (id : UUID) : Option String :=
  ((db.menuItem id).filter fun m => ids.contains m.id && m.deletedAt.isNone).map fun m =>
    m.externalID.getD ""

def menuItemIDs (items : List OrderItem) : List UUID := (items.map OrderItem.menuItemID).eraseDups

/-- What `summary` serves of an order, as the tables are. -/
def Db.summary (db : Db) (rt : Runtime) (orderID : UUID) : Option SummaryBody :=
  (db.orderByID orderID).map fun order =>
    let items := db.listOrderItems rt orderID
    buildSummary rt order items (db.externalIDsForItems (menuItemIDs items))

/-- Two summaries with the same lines and the same totals. Who ordered what is another matter. -/
structure SummaryBody.SameFood (a b : SummaryBody) : Prop where
  aggregated : b.aggregated = a.aggregated
  itemTotal : b.itemTotalCents = a.itemTotalCents
  paidTotal : b.paidTotalCents = a.paidTotalCents
  unpaidTotal : b.unpaidTotalCents = a.unpaidTotalCents
  grandTotal : b.grandTotalCents = a.grandTotalCents
  plainText : b.plainText = a.plainText

/-! ## Items without their owners -/

def OrderItem.food (i : OrderItem) : OrderItem :=
  { i with userID := deletedUserID, userName := "", updatedAt := 0 }

def OrderItemRow.food (i : OrderItemRow) : OrderItemRow :=
  { i with userID := deletedUserID, updatedAt := 0, updatedBy := none }

/-- Without its people and its audit columns, an order is the terms it was placed on. -/
def FoodOrderRow.terms (o : FoodOrderRow) : FoodOrderRow :=
  { o with creatorID := deletedUserID, moneyCollectorID := none, pickupPersonID := none
           updatedAt := 0, updatedBy := none }

section Food

variable {rt : Runtime} {items items' : List OrderItem}

theorem aggregate_food (externalIDs : UUID → Option String) :
    aggregate rt (items.map OrderItem.food) externalIDs = aggregate rt items externalIDs := by
  unfold aggregate groupFold
  rw [List.foldl_map]
  rfl

theorem paidSplit_food : paidSplit (items.map OrderItem.food) = paidSplit items := by
  unfold paidSplit
  rw [List.foldl_map]
  rfl

theorem menuItemIDs_food : menuItemIDs (items.map OrderItem.food) = menuItemIDs items := by
  unfold menuItemIDs
  rw [List.map_map]
  rfl

/-- The summary of the same food on the same terms is the same. -/
theorem buildSummary_sameFood {order order' : Order} {externalIDs : UUID → Option String}
    (hitems : items'.map OrderItem.food = items.map OrderItem.food)
    (hfee : order'.deliveryFeeCents = order.deliveryFeeCents) :
    (buildSummary rt order items externalIDs).SameFood
      (buildSummary rt order' items' externalIDs) := by
  have haggregated : aggregate rt items' externalIDs = aggregate rt items externalIDs := by
    rw [← aggregate_food, hitems, aggregate_food]
  have hpaid : paidSplit items' = paidSplit items := by
    rw [← paidSplit_food, hitems, paidSplit_food]
  constructor
  case aggregated => exact haggregated
  case plainText => exact congrArg plainText haggregated
  all_goals simp only [buildSummary, haggregated, hpaid, hfee]

end Food

/-! ## The items of an order, listed -/

/-- What is listed of a row, but for its owner. -/
def OrderItemRow.listed (i : OrderItemRow) : OrderItem :=
  { id := i.id
    orderID := i.orderID
    userID := deletedUserID
    userName := ""
    menuItemID := i.menuItemID
    quantity := i.quantity
    itemName := i.itemName
    unitPriceCents := i.unitPriceCents
    note := i.note.getD ""
    modifications := []
    paid := i.paid
    createdAt := i.createdAt
    updatedAt := 0 }

section Listing

variable {db db' : Db} {rt : Runtime} {orderID : UUID}

theorem scanOrderItem_food {i : OrderItemRow} (huser : (db.userByID i.userID).isSome) :
    (db.scanOrderItem i).map OrderItem.food = some i.listed := by
  obtain ⟨u, hu⟩ := Option.isSome_iff_exists.mp huser
  unfold Db.scanOrderItem
  rw [hu]
  rfl

theorem scanAll_food {rows : List OrderItemRow}
    (husers : ∀ i ∈ rows, (db.userByID i.userID).isSome) :
    (rows.filterMap db.scanOrderItem).map OrderItem.food = rows.map OrderItemRow.listed := by
  rw [List.map_filterMap, List.filterMap_congr fun i hi => scanOrderItem_food (husers i hi),
    List.filterMap_eq_map']

/-- The items of an order are listed by their moment and their id, whoever owns them. -/
theorem orderItemRows_food (husers : ∀ i ∈ db.itemsOf orderID, (db.userByID i.userID).isSome) :
    (db.orderItemRows orderID).map OrderItem.food =
      (sliceStable
        (fun a b => a.createdAt < b.createdAt || (a.createdAt == b.createdAt && a.id.n < b.id.n))
        ((db.itemsOf orderID).map OrderItemRow.food)).map OrderItemRow.listed := by
  unfold Db.orderItemRows
  rw [scanAll_food fun i hi => husers i ((sliceStable_perm _ _).mem_iff.mp hi)]
  calc _ = ((sliceStable _ (db.itemsOf orderID)).map OrderItemRow.food).map
          OrderItemRow.listed := by rw [List.map_map]; rfl
    _ = _ := congrArg (List.map OrderItemRow.listed) (sliceStable_map (fun _ _ => rfl) _)

/-- `loadModifications`, for one item. -/
def Db.withModifications (db : Db) (rt : Runtime) (item : OrderItem) : OrderItem :=
  let own := sliceStable (fun a b => rt.sortsBefore a.name b.name) (db.modificationsOf item.id)
  { item with modifications := own.map Db.scanModification }

theorem loadModifications_food (items : List OrderItem) :
    (db.loadModifications rt items).map OrderItem.food =
      (items.map OrderItem.food).map (db.withModifications rt) := by
  unfold Db.loadModifications
  rw [List.map_map, List.map_map]
  rfl

/-- **The same food is listed the same**, whoever owns it by now. -/
theorem listOrderItems_food
    (hitems : (db'.itemsOf orderID).map OrderItemRow.food =
      (db.itemsOf orderID).map OrderItemRow.food)
    (husers : ∀ i ∈ db.itemsOf orderID, (db.userByID i.userID).isSome)
    (husers' : ∀ i ∈ db'.itemsOf orderID, (db'.userByID i.userID).isSome)
    (hmodifications : ∀ i ∈ db.itemsOf orderID,
      db'.modificationsOf i.id = db.modificationsOf i.id) :
    (db'.listOrderItems rt orderID).map OrderItem.food =
      (db.listOrderItems rt orderID).map OrderItem.food := by
  unfold Db.listOrderItems
  rw [loadModifications_food, loadModifications_food, orderItemRows_food husers,
    orderItemRows_food husers', hitems]
  refine List.map_congr_left fun item hitem => ?_
  obtain ⟨row, hrow, rfl⟩ := List.mem_map.mp hitem
  obtain ⟨i, hi, rfl⟩ := List.mem_map.mp ((sliceStable_perm _ _).mem_iff.mp hrow)
  have hsame : db'.modificationsOf i.id = db.modificationsOf i.id := hmodifications i hi
  have hid : (OrderItemRow.listed (OrderItemRow.food i)).id = i.id := rfl
  simp only [Db.withModifications, hid, hsame]

end Listing

/-! ## What the statements leave -/

namespace Db

/-- Whoever an item or an order belongs to is there. -/
structure OwnersThere (db : Db) : Prop where
  items : ∀ i ∈ db.orderItems, (db.userByID i.userID).isSome
  orders : ∀ o ∈ db.foodOrders, (db.userByID o.creatorID).isSome

theorem userByID_isSome {db : Db} {id : UUID} :
    (db.userByID id).isSome ↔ ∃ u ∈ db.appUsers, u.id = id := by
  simp [userByID, List.find?_isSome]

theorem Valid.ownersThere {db : Db} (hvalid : db.Valid) : db.OwnersThere where
  items i hi := userByID_isSome.mpr (hvalid.refs.itemUser i hi i.userID rfl)
  orders o ho := userByID_isSome.mpr (hvalid.refs.orderCreator o ho o.creatorID rfl)

section Owners

variable {db db' : Db} {userID : UUID} {now : Time} {seen : List UUID}

theorem OwnersThere.reassignItems (h : db.OwnersThere)
    (hu : reassignOrderItems now seen db = .ok db') : db'.OwnersThere := by
  unfold reassignOrderItems at hu
  split_ifs at hu with hmissing
  cases hu
  refine ⟨fun j hj => ?_, h.orders⟩
  obtain ⟨i, hi, rfl⟩ := List.mem_map.mp hj
  split_ifs with hseen
  · -- the row goes to the placeholder, which the foreign key has looked for
    have hany : (db.orderItems.any fun i => seen.contains i.id) = true :=
      List.any_eq_true.mpr ⟨i, hi, hseen⟩
    rw [OrderItemRow.reassign_userID]
    rw [hany, Bool.true_and, Bool.not_eq_true, Bool.not_eq_false'] at hmissing
    exact hmissing
  · exact h.items i hi

theorem OwnersThere.deleteItems (h : db.OwnersThere) (doomed : OrderItemRow → Bool) :
    (db.deleteOrderItems doomed).OwnersThere :=
  ⟨fun i hi => h.items i (mem_keep.mp hi).1, h.orders⟩

theorem OwnersThere.reassignOrders (h : db.OwnersThere)
    (hu : reassignFoodOrders now seen db = .ok db') : db'.OwnersThere := by
  unfold reassignFoodOrders at hu
  split_ifs at hu with hmissing
  cases hu
  refine ⟨h.items, fun p hp => ?_⟩
  obtain ⟨o, ho, rfl⟩ := List.mem_map.mp hp
  split_ifs with hseen
  · have hany : (db.foodOrders.any fun o => seen.contains o.id) = true :=
      List.any_eq_true.mpr ⟨o, ho, hseen⟩
    rw [hany, Bool.true_and, Bool.not_eq_true, Bool.not_eq_false'] at hmissing
    exact hmissing
  · exact h.orders o ho

/-- Of the accounts, the deletion takes one. -/
theorem userByID_cascade {id : UUID} (hid : id ≠ userID) :
    (db.cascadeAppUser userID now).userByID id = db.userByID id := by
  unfold userByID
  rw [cascadeAppUser_appUsers]
  unfold keep
  rw [List.find?_filter]
  congr 1
  funext u
  by_cases hu : u.id = id
  · simp [hu, hid]
  · simp [hu]

theorem OwnersThere.deleteUser {user : AppUserRow} (h : db.OwnersThere)
    (huser : db.userByID userID = some user)
    (hu : deleteAppUser userID now db = .ok db') :
    db' = db.cascadeAppUser userID now ∧ db'.OwnersThere := by
  have hid : user.id = userID := by simpa using List.find?_some huser
  unfold deleteAppUser at hu
  simp only [huser, hid] at hu
  split_ifs at hu with hprotected hmissing
  cases hu
  have hother : deletedUserID ≠ userID := fun heq => hprotected (.inl heq.symm)
  -- what the account owned goes to the placeholder
  have howner : ∀ id, (db.userByID id).isSome → (id = userID → db.ownsRows userID = true) →
      ((db.cascadeAppUser userID now).userByID
        (if id = userID then deletedUserID else id)).isSome := by
    intro id hthere howns
    by_cases heq : id = userID
    · rw [if_pos heq, userByID_cascade hother]
      rw [howns heq, Bool.true_and, Bool.not_eq_true, Bool.not_eq_false'] at hmissing
      exact hmissing
    · rw [if_neg heq, userByID_cascade heq]
      exact hthere
  refine ⟨rfl, fun j hj => ?_, fun p hp => ?_⟩
  · obtain ⟨i, hi, rfl⟩ := List.mem_map.mp hj
    refine howner i.userID (h.items i hi) fun heq => ?_
    simp only [ownsRows, Bool.or_eq_true, List.any_eq_true, beq_iff_eq]
    exact .inl (.inr ⟨i, hi, heq⟩)
  · obtain ⟨o, ho, rfl⟩ := List.mem_map.mp hp
    refine howner o.creatorID (h.orders o ho) fun heq => ?_
    simp only [ownsRows, Bool.or_eq_true, List.any_eq_true, beq_iff_eq]
    exact .inl (.inl ⟨o, ho, heq⟩)

end Owners

/-- The tables before the account itself goes: a statement has remapped the rows it is about, or it
has found none. -/
def Remapped (db : Db) (userID : UUID) (now stamp : Time) (v : Db) : Prop :=
  ∃ v₁ v₂, (v₁ = db ∨ v₁ = db.itemsReassigned userID now stamp) ∧
    (v₂ = v₁ ∨ v₂ = v₁.itemsDeleted userID stamp) ∧ (v = v₂ ∨ v = v₂.ordersReassigned userID now)

theorem reassignOrderItems_eq_ok {db db' : Db} {userID : UUID} {now stamp : Time}
    (h : reassignOrderItems now (db.expiredItemsOf userID stamp) db = .ok db') :
    db' = db.itemsReassigned userID now stamp := by
  unfold reassignOrderItems at h
  split_ifs at h
  cases h
  rfl

theorem reassignFoodOrders_eq_ok {db db' : Db} {userID : UUID} {now : Time}
    (h : reassignFoodOrders now (db.createdOrders userID) db = .ok db') :
    db' = db.ordersReassigned userID now := by
  unfold reassignFoodOrders at h
  split_ifs at h
  cases h
  rfl

end Db

section Transaction

variable {w : World Db Time} {userID : UUID} {stamp : Time}

/-- **What the transaction sees before it commits**, when nothing else is committed. -/
theorem remapAndDelete_views (howners : w.db.OwnersThere) {tx : PgTx} (hbegan : tx.began = w.now)
    (hview : tx.view w.db = .ok w.db) :
    (remapAndDelete tx userID stamp).Returns (· = w) fun tx' =>
      ∃ v after, tx'.view w.db = .ok after ∧ w.db.Remapped userID w.now stamp v ∧
        after = v.cascadeAppUser userID w.now ∧ after.OwnersThere := by
  unfold remapAndDelete
  refine .bind (.mapError (Tx.exec_views hview _) _) ?_
  rintro tx₁ ⟨hbegan₁, v₁, hview₁, hv₁⟩
  rw [hbegan] at hbegan₁ hv₁
  have hfirst : (v₁ = w.db ∨ v₁ = w.db.itemsReassigned userID w.now stamp) ∧ v₁.OwnersThere := by
    rcases hv₁ with rfl | hu
    · exact ⟨.inl rfl, howners⟩
    · exact ⟨.inr (Db.reassignOrderItems_eq_ok hu), howners.reassignItems hu⟩
  refine .bind (.mapError (Tx.exec_views hview₁ _) _) ?_
  rintro tx₂ ⟨hbegan₂, v₂, hview₂, hv₂⟩
  rw [hbegan₁] at hbegan₂
  have hsecond : (v₂ = v₁ ∨ v₂ = v₁.itemsDeleted userID stamp) ∧ v₂.OwnersThere := by
    rcases hv₂ with rfl | hu
    · exact ⟨.inl rfl, hfirst.2⟩
    · cases hu
      exact ⟨.inr rfl, hfirst.2.deleteItems _⟩
  refine .bind (.mapError (Tx.exec_views hview₂ _) _) ?_
  rintro tx₃ ⟨hbegan₃, v₃, hview₃, hv₃⟩
  rw [hbegan₂] at hbegan₃ hv₃
  have hthird : (v₃ = v₂ ∨ v₃ = v₂.ordersReassigned userID w.now) ∧ v₃.OwnersThere := by
    rcases hv₃ with rfl | hu
    · exact ⟨.inl rfl, hsecond.2⟩
    · exact ⟨.inr (Db.reassignFoodOrders_eq_ok hu), hsecond.2.reassignOrders hu⟩
  refine .bind (.mapError (Tx.execRows_views hview₃ _ _) _) ?_
  rintro ⟨tx₄, rows⟩ hlast
  refine .bind (.require _ _) fun _ hrows => ?_
  rcases hlast with hnone | ⟨after, hview₄, hdelete, hcount⟩
  · exact absurd hnone (bne_iff_ne.mp hrows)
  · -- the last statement found the account
    rw [hbegan₃] at hdelete
    have hpos : 0 < v₃.appUsers.countP fun u => u.id == userID := by
      rw [← hcount]
      exact Nat.pos_of_ne_zero (bne_iff_ne.mp hrows)
    obtain ⟨u, hu, hid⟩ := List.countP_pos_iff.mp hpos
    have hthere : (v₃.userByID userID).isSome :=
      Db.userByID_isSome.mpr ⟨u, hu, beq_iff_eq.mp hid⟩
    obtain ⟨user, huser⟩ := Option.isSome_iff_exists.mp hthere
    obtain ⟨rfl, howners'⟩ := hthird.2.deleteUser huser hdelete
    exact returns_done.mpr
      ⟨v₃, _, hview₄, ⟨v₁, v₂, hfirst.1, hsecond.1, hthird.1⟩, rfl, howners'⟩

end Transaction

/-! ## What becomes of the rows -/

namespace Db

section Stages

variable {db v v' : Db} {userID : UUID} {now stamp : Time}

theorem OrderItemRow.reassign_food (now : Time) (i : OrderItemRow) :
    (i.reassign now).food = i.food := by
  unfold OrderItemRow.reassign OrderItemRow.update
  split_ifs <;> rfl

theorem food_id {i j : OrderItemRow} (h : j.food = i.food) : j.id = i.id := by
  have hid : j.food.id = i.food.id := by rw [h]
  exact hid

theorem food_orderID {i j : OrderItemRow} (h : j.food = i.food) : j.orderID = i.orderID := by
  have horder : j.food.orderID = i.food.orderID := by rw [h]
  exact horder

/-- The first statement hands items of the account over. -/
theorem reassigned_rows (hkeys : (db.orderItems.map OrderItemRow.id).Nodup)
    (h : v = db ∨ v = db.itemsReassigned userID now stamp) :
    ∃ f, v = db.setOrderItems (db.orderItems.map f) ∧
      (∀ i, (f i).food = i.food) ∧ ∀ i ∈ db.orderItems, f i = i ∨ i.userID = userID := by
  rcases h with rfl | rfl
  · exact ⟨id, by rw [List.map_id]; rfl, fun _ => rfl, fun _ _ => .inl rfl⟩
  · refine ⟨db.reassignedItem userID now stamp, rfl, fun i => ?_, fun i hi => ?_⟩
    · unfold reassignedItem
      split_ifs
      · exact OrderItemRow.reassign_food now i
      · rfl
    · have hseen : (db.expiredItemsOf userID stamp).contains i.id =
          (i.userID == userID && db.itemExpired stamp i) := contains_selected hkeys hi
      unfold reassignedItem
      rw [hseen]
      split_ifs with hown
      · rw [Bool.and_eq_true, beq_iff_eq] at hown
        exact .inr hown.1
      · exact .inl rfl

/-- The second deletes items of the account in open orders. -/
theorem deleted_rows (hkeys : (db.orderItems.map OrderItemRow.id).Nodup)
    (h : v = db ∨ v = db.itemsDeleted userID stamp) :
    ∃ doomed : UUID → Bool, v = db.deleteOrderItems (fun i => doomed i.id) ∧
      ∀ i ∈ db.orderItems, doomed i.id = true →
        i.userID = userID ∧ db.itemOpen stamp i = true := by
  rcases h with rfl | rfl
  · refine ⟨fun _ => false, ?_, fun _ _ hdoomed => by cases hdoomed⟩
    have hlost : gone OrderItemRow.id (fun _ => false) v.orderItems = fun _ => false :=
      gone_eq_none fun _ _ => rfl
    simp [deleteOrderItems, hlost]
  · refine ⟨fun id => (db.openItemsOf userID stamp).contains id, rfl, fun i hi hdoomed => ?_⟩
    have hseen : (db.openItemsOf userID stamp).contains i.id =
        (i.userID == userID && db.itemOpen stamp i) := contains_selected hkeys hi
    have hown : (i.userID == userID && db.itemOpen stamp i) = true := hseen.symm.trans hdoomed
    rw [Bool.and_eq_true, beq_iff_eq] at hown
    exact hown

/-- The third hands orders of the account over. -/
theorem reassigned_orders (hkeys : (db.foodOrders.map FoodOrderRow.id).Nodup)
    (h : v = db ∨ v = db.ordersReassigned userID now) :
    ∃ g, v = db.setFoodOrders (db.foodOrders.map g) ∧
      (∀ o, (g o).terms = o.terms ∧ (g o).moneyCollectorID = o.moneyCollectorID ∧
        (g o).pickupPersonID = o.pickupPersonID) ∧
      ∀ o ∈ db.foodOrders, g o = o ∨ o.creatorID = userID := by
  rcases h with rfl | rfl
  · exact ⟨id, by rw [List.map_id]; rfl, fun _ => ⟨rfl, rfl, rfl⟩, fun _ _ => .inl rfl⟩
  · refine ⟨fun o => if (db.createdOrders userID).contains o.id then o.reassign now else o, rfl,
      fun o => ?_, fun o ho => ?_⟩
    · dsimp only
      split_ifs <;> exact ⟨rfl, rfl, rfl⟩
    · have hseen : (db.createdOrders userID).contains o.id = (o.creatorID == userID) :=
        contains_selected hkeys ho
      simp only [hseen]
      split_ifs with hown
      · exact .inr (beq_iff_eq.mp hown)
      · exact .inl rfl

theorem externalIDsForItems_congr {db' : Db} {f : MenuItemRow → MenuItemRow}
    (h : db'.menuItems = db.menuItems.map f)
    (hf : ∀ m, (f m).id = m.id ∧ (f m).deletedAt = m.deletedAt ∧ (f m).externalID = m.externalID) :
    db'.externalIDsForItems = db.externalIDsForItems := by
  funext ids id
  have hfind : db'.menuItem id = (db.menuItem id).map f := by
    unfold menuItem
    rw [h]
    exact find?_map_key (fun m => (hf m).1) db.menuItems id
  unfold externalIDsForItems
  rw [hfind]
  cases db.menuItem id with
  | none => rfl
  | some m =>
    obtain ⟨hid, hdeleted, hexternal⟩ := hf m
    have hsame : ((f m).externalID.getD "") = m.externalID.getD "" := by rw [hexternal]
    simp only [Option.map_some, Option.filter, hid, hdeleted]
    split_ifs
    · exact congrArg some hsame
    · rfl

/-- What has become of the rows. -/
structure AccountGone (db after : Db) (userID : UUID) (now stamp : Time) : Prop where
  items : ∃ (doomed : UUID → Bool) (f : OrderItemRow → OrderItemRow),
    after.orderItems = (keep (fun i => doomed i.id) db.orderItems).map f ∧
    (∀ i, (f i).food = i.food) ∧
    ∀ i ∈ db.orderItems,
      (doomed i.id = true → i.userID = userID ∧ db.itemOpen stamp i = true) ∧
      (doomed i.id = false → after.modificationsOf i.id = db.modificationsOf i.id) ∧
      (i.userID ≠ userID → f i = { i with updatedBy := forgetActor userID i.updatedBy })
  orders : ∃ g : FoodOrderRow → FoodOrderRow, after.foodOrders = db.foodOrders.map g ∧
    (∀ o, (g o).terms = o.terms ∧
      (g o).moneyCollectorID = forgetActor userID o.moneyCollectorID ∧
      (g o).pickupPersonID = forgetActor userID o.pickupPersonID) ∧
    ∀ o ∈ db.foodOrders, o.creatorID ≠ userID → g o = o.forgetUser userID now
  restaurants : after.restaurants = db.restaurants
  menu : after.externalIDsForItems = db.externalIDsForItems

theorem Remapped.accountGone (hvalid : db.Valid) (h : db.Remapped userID now stamp v) :
    AccountGone db (v.cascadeAppUser userID now) userID now stamp := by
  obtain ⟨v₁, v₂, hfirst, hsecond, hthird⟩ := h
  obtain ⟨f, rfl, hfood, hf⟩ := reassigned_rows hvalid.keys.orderItems hfirst
  have hid : ∀ i, (f i).id = i.id := fun i => food_id (hfood i)
  have horder : ∀ i, (f i).orderID = i.orderID := fun i => food_orderID (hfood i)
  have hkeys : ((db.orderItems.map f).map OrderItemRow.id).Nodup := by
    rw [List.map_map]
    exact (List.map_congr_left fun i _ => hid i).symm ▸ hvalid.keys.orderItems
  obtain ⟨doomed, rfl, hdoomed⟩ := deleted_rows hkeys hsecond
  obtain ⟨g, rfl, hterms, hg⟩ := reassigned_orders (by exact hvalid.keys.foodOrders) hthird
  constructor
  case items =>
    refine ⟨doomed, OrderItemRow.forgetUser userID now ∘ f, ?_, fun i => hfood i, fun i hi => ?_⟩
    · show (keep (fun i => doomed i.id) (db.orderItems.map f)).map _ = _
      rw [keep, List.filter_map, List.map_map]
      simp only [Function.comp_def, hid, keep]
    · refine ⟨fun hgone => ?_, fun hstays => ?_, fun hother => ?_⟩
      · obtain ⟨howner, hopen⟩ := hdoomed (f i) (List.mem_map_of_mem hi) ((hid i).symm ▸ hgone)
        rw [itemOpen_congr rfl (horder i)] at hopen
        refine ⟨?_, hopen⟩
        rcases hf i hi with hsame | hown
        · rwa [hsame] at howner
        · exact hown
      · refine filter_keep fun m _ hm => dangling_eq_false.mpr fun k hk => ?_
        cases hk
        refine gone_eq_false.mpr fun p _ hp => ?_
        rw [hp, beq_iff_eq.mp hm]
        exact hstays
      · have hsame : f i = i := (hf i hi).resolve_right hother
        simp [hsame, OrderItemRow.forgetUser, hother]
  case orders =>
    refine ⟨FoodOrderRow.forgetUser userID now ∘ g, ?_, fun o => ?_, fun o ho hother => ?_⟩
    · exact List.map_map
    · obtain ⟨hsame, hmoney, hpickup⟩ := hterms o
      refine ⟨hsame, ?_, ?_⟩
      · rw [← hmoney]
        rfl
      · rw [← hpickup]
        rfl
    · show (g o).forgetUser userID now = _
      rw [(hg o ho).resolve_right hother]
  case restaurants => rfl
  case menu =>
    exact externalIDsForItems_congr (f := fun m =>
      { m with updatedBy := forgetActor userID m.updatedBy }) rfl fun _ => ⟨rfl, rfl, rfl⟩

end Stages

/-- The parts of the history that outlive an account. Of an order, `terms` leaves out its people and
its audit columns, of an item `food` its owner and the same columns. -/
structure HistoryKept (rt : Runtime) (userID : UUID) (stamp : Time) (before after : Db) : Prop where
  /-- every order is still there, and nobody else loses a job -/
  orders : ∀ o ∈ before.foodOrders, ∃ p, after.foodOrder o.id = some p ∧ p.terms = o.terms ∧
    p.moneyCollectorID = forgetActor userID o.moneyCollectorID ∧
    p.pickupPersonID = forgetActor userID o.pickupPersonID
  /-- an order of somebody else only loses what the account was in it -/
  otherOrders : ∀ o ∈ before.foodOrders, o.creatorID ≠ userID → ∃ p,
    after.foodOrder o.id = some p ∧
    p = { o with
      moneyCollectorID := forgetActor userID o.moneyCollectorID
      pickupPersonID := forgetActor userID o.pickupPersonID
      updatedAt := p.updatedAt
      updatedBy := forgetActor userID o.updatedBy } ∧
    (holdsJob userID o = false → p.updatedAt = o.updatedAt)
  /-- an item of somebody else is as it was, whether or not its order is over -/
  otherItems : ∀ i ∈ before.orderItems, i.userID ≠ userID →
    after.orderItem i.id = some { i with updatedBy := forgetActor userID i.updatedBy } ∧
    after.modificationsOf i.id = before.modificationsOf i.id
  expiredItems : ∀ o ∈ before.foodOrders, o.deadlineAt ≤ pgTime stamp →
    (after.itemsOf o.id).map OrderItemRow.food = (before.itemsOf o.id).map OrderItemRow.food ∧
    ∀ i ∈ before.itemsOf o.id, after.modificationsOf i.id = before.modificationsOf i.id
  summaries : ∀ o ∈ before.foodOrders, o.deadlineAt ≤ pgTime stamp →
    ∃ s t, before.summary rt o.id = some s ∧ after.summary rt o.id = some t ∧ s.SameFood t

section Kept

variable {db after : Db} {rt : Runtime} {userID : UUID} {now stamp : Time}

theorem scanOrder_isSome (hvalid : db.Valid) {o : FoodOrderRow} (ho : o ∈ db.foodOrders)
    {db' : Db} {p : FoodOrderRow} (hrestaurants : db'.restaurants = db.restaurants)
    (hterms : p.terms = o.terms) (hcreator : (db'.userByID p.creatorID).isSome) :
    ∃ order, db'.scanOrder p = some order ∧ order.deliveryFeeCents = o.deliveryFeeCents := by
  obtain ⟨r, hr, hid⟩ := hvalid.refs.orderRestaurant o ho o.restaurantID rfl
  have hrestaurant : p.restaurantID = o.restaurantID := by
    have hsame : p.terms.restaurantID = o.terms.restaurantID := by rw [hterms]
    exact hsame
  have hfee : p.deliveryFeeCents = o.deliveryFeeCents := by
    have hsame : p.terms.deliveryFeeCents = o.terms.deliveryFeeCents := by rw [hterms]
    exact hsame
  obtain ⟨u, hu⟩ := Option.isSome_iff_exists.mp hcreator
  have hfound : (db'.restaurants.find? fun r => r.id == p.restaurantID) = some r := by
    rw [hrestaurants, hrestaurant, ← hid]
    exact find?_key hvalid.keys.restaurants hr
  unfold scanOrder
  rw [hfound, hu]
  exact ⟨_, rfl, hfee⟩

theorem itemOpen_order {o : FoodOrderRow} {i : OrderItemRow}
    (hkeys : (db.foodOrders.map FoodOrderRow.id).Nodup) (ho : o ∈ db.foodOrders)
    (hi : i.orderID = o.id) : db.itemOpen stamp i = decide (pgTime stamp < o.deadlineAt) := by
  have hfound : db.foodOrder i.orderID = some o := by
    rw [hi]
    exact find?_key hkeys ho
  rw [itemOpen, hfound, Option.any_some]

/-- An order that is over keeps its items: those that go are in open orders. -/
theorem AccountGone.expiredItems (hvalid : db.Valid) (h : AccountGone db after userID now stamp)
    {o : FoodOrderRow} (ho : o ∈ db.foodOrders) (hpast : o.deadlineAt ≤ pgTime stamp) :
    (after.itemsOf o.id).map OrderItemRow.food = (db.itemsOf o.id).map OrderItemRow.food ∧
      ∀ i ∈ db.itemsOf o.id, after.modificationsOf i.id = db.modificationsOf i.id := by
  obtain ⟨doomed, f, hitems, hfood, hf⟩ := h.items
  have hstays : ∀ i ∈ db.orderItems, (i.orderID == o.id) = true → doomed i.id = false := by
    intro i hi hof
    have hclosed : db.itemOpen stamp i = false := by
      rw [itemOpen_order hvalid.keys.foodOrders ho (beq_iff_eq.mp hof)]
      exact decide_eq_false (not_lt.mpr hpast)
    by_contra hgone
    obtain ⟨-, hopen⟩ := (hf i hi).1 (eq_true_of_ne_false hgone)
    rw [hclosed] at hopen
    cases hopen
  constructor
  · have hrows : after.itemsOf o.id = (db.itemsOf o.id).map f := by
      unfold itemsOf
      rw [hitems, List.filter_map]
      simp only [Function.comp_def, fun i => food_orderID (hfood i)]
      rw [filter_keep hstays]
    rw [hrows, List.map_map]
    exact List.map_congr_left fun i _ => hfood i
  · intro i hi
    obtain ⟨hmem, hof⟩ := List.mem_filter.mp hi
    exact (hf i hmem).2.1 (hstays i hmem hof)

/-- An item of somebody else is not among those that go, and is nobody's to hand over. -/
theorem AccountGone.otherItem (hvalid : db.Valid) (h : AccountGone db after userID now stamp)
    {i : OrderItemRow} (hi : i ∈ db.orderItems) (hother : i.userID ≠ userID) :
    after.orderItem i.id = some { i with updatedBy := forgetActor userID i.updatedBy } ∧
      after.modificationsOf i.id = db.modificationsOf i.id := by
  obtain ⟨doomed, f, hitems, hfood, hf⟩ := h.items
  obtain ⟨hgone, hmodifications, hsame⟩ := hf i hi
  have hstays : doomed i.id = false := by
    by_contra hdoomed
    exact hother (hgone (eq_true_of_ne_false hdoomed)).1
  constructor
  · have hkept : (keep (fun i => doomed i.id) db.orderItems).find? (fun j => j.id == i.id) =
        some i := by
      rw [find?_keep hvalid.keys.orderItems hi, hstays]
      rfl
    unfold orderItem
    rw [hitems, find?_map_key fun j => food_id (hfood j), hkept, Option.map_some, hsame hother]
  · exact hmodifications hstays

/-- Every order is still there, on the terms it had. -/
theorem AccountGone.order (hvalid : db.Valid) (h : AccountGone db after userID now stamp)
    {o : FoodOrderRow} (ho : o ∈ db.foodOrders) :
    ∃ p, after.foodOrder o.id = some p ∧ p ∈ after.foodOrders ∧ p.terms = o.terms ∧
      p.moneyCollectorID = forgetActor userID o.moneyCollectorID ∧
      p.pickupPersonID = forgetActor userID o.pickupPersonID ∧
      (o.creatorID ≠ userID → p = o.forgetUser userID now) := by
  obtain ⟨g, horders, hterms, hg⟩ := h.orders
  have horderID : ∀ o, (g o).id = o.id := by
    intro o
    have hsame : (g o).terms.id = o.terms.id := by rw [(hterms o).1]
    exact hsame
  have hfound : db.foodOrder o.id = some o := find?_key hvalid.keys.foodOrders ho
  have hafter : after.foodOrder o.id = some (g o) := by
    unfold foodOrder at hfound ⊢
    rw [horders, find?_map_key horderID, hfound, Option.map_some]
  have hmem : g o ∈ after.foodOrders := horders ▸ List.mem_map_of_mem ho
  obtain ⟨hsame, hmoney, hpickup⟩ := hterms o
  exact ⟨g o, hafter, hmem, hsame, hmoney, hpickup, hg o ho⟩

/-- Who held no job in it leaves an order of somebody else alone. -/
theorem forgetUser_other {o : FoodOrderRow} (hother : o.creatorID ≠ userID)
    (hjob : holdsJob userID o = false) : (o.forgetUser userID now).updatedAt = o.updatedAt := by
  rw [holdsJob, Bool.or_eq_false_iff, beq_eq_false_iff_ne, beq_eq_false_iff_ne] at hjob
  unfold FoodOrderRow.forgetUser
  simp [hother, hjob.1, hjob.2]

theorem AccountGone.summary (hvalid : db.Valid) (h : AccountGone db after userID now stamp)
    (howners : after.OwnersThere) {o : FoodOrderRow} (ho : o ∈ db.foodOrders)
    (hpast : o.deadlineAt ≤ pgTime stamp) :
    ∃ s t, db.summary rt o.id = some s ∧ after.summary rt o.id = some t ∧ s.SameFood t := by
  have hthere := hvalid.ownersThere
  obtain ⟨p, hp, hmem, hterms, -, -, -⟩ := h.order hvalid ho
  obtain ⟨hitems, hmodifications⟩ := h.expiredItems hvalid ho hpast
  obtain ⟨order, hscan, hfee⟩ :=
    scanOrder_isSome hvalid ho rfl rfl (hthere.orders o ho)
  obtain ⟨order', hscan', hfee'⟩ :=
    scanOrder_isSome hvalid ho h.restaurants hterms (howners.orders p hmem)
  have hbefore : db.orderByID o.id = some order := by
    have hfound : db.foodOrder o.id = some o := find?_key hvalid.keys.foodOrders ho
    rw [orderByID, hfound, Option.bind_some, hscan]
  have hafter : after.orderByID o.id = some order' := by
    rw [orderByID, hp, Option.bind_some, hscan']
  have hlisted : (after.listOrderItems rt o.id).map OrderItem.food =
      (db.listOrderItems rt o.id).map OrderItem.food :=
    listOrderItems_food hitems (fun i hi => hthere.items i (List.mem_of_mem_filter hi))
      (fun i hi => howners.items i (List.mem_of_mem_filter hi)) hmodifications
  have hids : after.externalIDsForItems (menuItemIDs (after.listOrderItems rt o.id)) =
      db.externalIDsForItems (menuItemIDs (db.listOrderItems rt o.id)) := by
    rw [h.menu, ← menuItemIDs_food, hlisted, menuItemIDs_food]
  have hsummary : db.summary rt o.id = some (buildSummary rt order (db.listOrderItems rt o.id)
      (db.externalIDsForItems (menuItemIDs (db.listOrderItems rt o.id)))) := by
    rw [Db.summary, hbefore]
    rfl
  have hsummary' : after.summary rt o.id = some (buildSummary rt order'
      (after.listOrderItems rt o.id)
      (db.externalIDsForItems (menuItemIDs (db.listOrderItems rt o.id)))) := by
    rw [Db.summary, hafter, ← hids]
    rfl
  exact ⟨_, _, hsummary, hsummary', buildSummary_sameFood hlisted (hfee'.trans hfee.symm)⟩

theorem AccountGone.historyKept (hvalid : db.Valid) (h : AccountGone db after userID now stamp)
    (howners : after.OwnersThere) : db.HistoryKept rt userID stamp after := by
  constructor
  case orders =>
    intro o ho
    obtain ⟨p, hp, -, hterms, hmoney, hpickup, -⟩ := h.order hvalid ho
    exact ⟨p, hp, hterms, hmoney, hpickup⟩
  case otherOrders =>
    intro o ho hother
    obtain ⟨p, hp, -, -, -, -, hsame⟩ := h.order hvalid ho
    refine ⟨p, hp, ?_, fun hjob => ?_⟩
    · rw [hsame hother]
      simp [FoodOrderRow.forgetUser, hother]
    · rw [hsame hother]
      exact forgetUser_other hother hjob
  case otherItems => exact fun i hi hother => h.otherItem hvalid hi hother
  case expiredItems => exact fun o ho hpast => h.expiredItems hvalid ho hpast
  case summaries => exact fun o ho hpast => h.summary hvalid howners ho hpast

end Kept

end Db

/-! ## The deletion -/

section Deletion

variable {w w' : World Db Time} {userID : UUID} {ω : DeleteAccountStmt → Outcome}

/-- A deletion that fails has not got as far as the commit, or was refused there. -/
theorem deleteAccount_quiet (userID : UUID) (now : Time) :
    (deleteAccount userID now).Quiet id ω w := by
  unfold deleteAccount
  apply (stampAt_reads (L := fun _ => True) trivial now).readOnly.quiet_bind
  intro stamp _
  apply ((begin_reads (L := fun _ => True) trivial).mapError _).readOnly.quiet_bind
  intro tx _
  apply (remapAndDelete_reads tx userID stamp).readOnly.quiet_bind
  intro tx' _
  exact write_quiet.mapError _

/-- A deletion that succeeds has committed what its statements staged. -/
theorem deleteAccount_ok (hvalid : w.db.Valid) {now : Time}
    (hrun : (deleteAccount userID now).run ω w = (.ok (), w')) :
    ∃ v after, w' = { w with db := after } ∧ w.db.Remapped userID w.now (stampOf w.now now) v ∧
      after = v.cascadeAppUser userID w.now ∧ after.OwnersThere := by
  unfold deleteAccount at hrun
  have hstamp := stampAt_run (ω := ω) (w := w) DeleteAccountStmt.clock now
  rw [run_bind_of_ok hstamp] at hrun
  obtain ⟨tx, hbegin, hrest⟩ :=
    ((begin_reads (L := fun _ => True) trivial).mapError _).readOnly.run_bind_eq_ok hrun
  obtain ⟨tx', hremap, hcommit⟩ :=
    (remapAndDelete_reads tx userID _).readOnly.run_bind_eq_ok hrest
  have htx : tx = { began := w.now, writes := [] } := by
    have hread := run_mapError_eq_ok hbegin
    rw [begin, run_read] at hread
    exact Outcome.rows_eq_ok (Prod.mk.inj hread).1
  subst htx
  obtain ⟨v, after, hview, hv, hafter, howners⟩ :=
    (remapAndDelete_views (w := w) hvalid.ownersThere rfl (Tx.view_nil _ _)).run
      (remapAndDelete_reads _ userID _).readOnly rfl (congrArg Prod.fst hremap)
  refine ⟨v, after, ?_, hv, hafter, howners⟩
  have hwrite := run_mapError_eq_ok hcommit
  rw [Tx.commit, run_write] at hwrite
  obtain ⟨hresult, hworld⟩ := Prod.mk.inj hwrite
  cases hstaged : tx'.committed (ω .commit) w.db with
  | error x =>
    rw [hstaged] at hresult
    cases hresult
  | ok r =>
    have hdb : tx'.view w.db = .ok r.1 := tx'.committed_eq_ok hstaged
    rw [hview] at hdb
    cases hdb
    rw [← hworld, hstaged]
    rfl

/-- **Deleting an account does not rewrite history.** Whatever its statements come to, it either
fails and changes nothing, or leaves what others have and what is over. -/
theorem deleteAccount_history (rt : Runtime) (w : World Db Time) (hvalid : w.db.Valid)
    (userID : UUID) (now : Time) (ω : DeleteAccountStmt → Outcome) :
    (∀ x w', (deleteAccount userID now).run ω w = (.error x, w') → w' = w) ∧
      ∀ w', (deleteAccount userID now).run ω w = (.ok (), w') →
        w.db.HistoryKept rt userID (stampOf w.now now) w'.db := by
  constructor
  · intro x w' hrun
    have hquiet := deleteAccount_quiet (ω := ω) (w := w) userID now x (congrArg Prod.fst hrun)
    rw [hrun] at hquiet
    exact hquiet
  · intro w' hrun
    obtain ⟨v, after, rfl, hv, rfl, howners⟩ := deleteAccount_ok hvalid hrun
    exact (hv.accountGone hvalid).historyKept hvalid howners

theorem deleteAccount_history_anna :
    annasLunch.HistoryKept .ascii ⟨1⟩ 200000 (annasLunch.accountDeleted ⟨1⟩ 200000 200000) := by
  have hrun := deleteAccount_run (w := { db := annasLunch, now := 200000 }) ⟨1⟩ rfl
    rfl (by decide) rfl 200000
  exact (deleteAccount_history .ascii { db := annasLunch, now := 200000 } annasLunch_valid ⟨1⟩ 200000
    fun _ => .ok).2 _ hrun

end Deletion

/-! ## Ben's lunch -/

/-- The open order of `annasLunch` is Ben's. Anna collects the money. -/
def bensLunch : Db :=
  { annasLunch with
    appUsers := { id := ⟨2⟩, name := "ben", displayName := none, passwordHash := "*"
                  email := none, isAdmin := false, lastLoginAt := none } :: annasLunch.appUsers
    foodOrders := annasLunch.foodOrders.map fun o => { o with creatorID := ⟨2⟩ } }

theorem bensLunch_valid : bensLunch.Valid where
  keys := by constructor <;> decide +kernel
  refs := by constructor <;> decide +kernel
  checks := by constructor <;> decide +kernel

/-- Ben's order loses its collector, and says when. -/
theorem deleteAccount_touches_others :
    ¬ ∀ (w w' : World Db Time) (userID : UUID) (now : Time), w.db.Valid →
      (deleteAccount userID now).run (fun _ => Outcome.ok) w = (.ok (), w') →
      ∀ o ∈ w.db.foodOrders, o.creatorID ≠ userID → w'.db.foodOrder o.id = some o := by
  intro h
  have hrun := deleteAccount_run (w := { db := bensLunch, now := 0 }) ⟨1⟩ rfl rfl
    (by decide) rfl 0
  have hsame := h { db := bensLunch, now := 0 } _ ⟨1⟩ 0 bensLunch_valid hrun
  exact absurd hsame (by decide +kernel)

end Doenerstag
