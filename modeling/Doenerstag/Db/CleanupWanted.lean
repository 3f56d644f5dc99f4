import Doenerstag.Db.CleanupFixpoint
import Doenerstag.Db.Queries

/-!
# A run keeps what is still wanted

A row goes only when nothing that stays refers to it. That covers every reference but one: the
clearing of `order_item_modification.modification_id` when a modification goes with its dish. It
spares the snapshots of every item that stays, provided a snapshot names a modification of its
item's own dish, since that dish then stays too.

* `Db.SnapshotsOfOwnDish` — the proviso, which `insertModifications` establishes.
* `Db.KeepsWanted` — what a cleanup has to leave alone.
* `cleanup_keepsWanted` — **a run keeps all of it.**
-/

namespace Doenerstag

open Tables

namespace Db

/-- Every modification snapshot on an order item refers to a modification of that item's dish. -/
def SnapshotsOfOwnDish (db : Db) : Prop :=
  ∀ s ∈ db.orderItemModifications, ∀ m ∈ db.menuItemModifications, s.modificationID = some m.id →
    ∀ i ∈ db.orderItems, i.id = s.orderItemID → m.menuItemID = i.menuItemID

instance (db : Db) : Decidable db.SnapshotsOfOwnDish :=
  inferInstanceAs (Decidable (∀ s ∈ db.orderItemModifications, _))

/-- What a cleanup at `now` has to leave alone on the way from `db` to `after`. -/
structure KeepsWanted (rt : Runtime) (retention : Duration) (now : Time) (db after : Db) : Prop where
  /-- an order within the retention, with its items, its snapshots, and so its totals -/
  orders : ∀ o ∈ db.foodOrders, now - retention ≤ o.deadlineAt →
    o ∈ after.foodOrders ∧ after.itemsOf o.id = db.itemsOf o.id ∧
      (∀ i ∈ db.itemsOf o.id, after.modificationsOf i.id = db.modificationsOf i.id) ∧
      after.listOrderItems rt o.id = db.listOrderItems rt o.id
  livingRestaurants : ∀ r ∈ db.restaurants, r.deletedAt = none → r ∈ after.restaurants
  livingCategories : ∀ c ∈ db.menuCategories, c.deletedAt = none → c ∈ after.menuCategories
  livingMenuItems : ∀ m ∈ db.menuItems, m.deletedAt = none → m ∈ after.menuItems
  livingModifications : ∀ m ∈ db.menuItemModifications, m.deletedAt = none →
    (∃ d ∈ after.menuItems, d.id = m.menuItemID) → m ∈ after.menuItemModifications
  restaurantsReferred : ∀ r ∈ db.restaurants,
    (∃ o ∈ after.foodOrders, o.restaurantID = r.id) ∨
      (∃ m ∈ after.menuItems, m.restaurantID = r.id) → r ∈ after.restaurants
  categoriesReferred : ∀ c ∈ db.menuCategories,
    (∃ m ∈ after.menuItems, m.categoryID = some c.id) → c ∈ after.menuCategories
  menuItemsReferred : ∀ m ∈ db.menuItems,
    (∃ i ∈ after.orderItems, i.menuItemID = m.id) → m ∈ after.menuItems
  modificationsReferred : ∀ m ∈ db.menuItemModifications,
    (∃ s ∈ after.orderItemModifications, s.modificationID = some m.id) →
      m ∈ after.menuItemModifications
  images : ∀ i ∈ db.images,
    (∃ r ∈ after.restaurants, r.logoImageID = some i.id) ∨
      (∃ m ∈ after.menuItems, m.imageID = some i.id) ∨ now - imageGrace ≤ i.createdAt →
      i ∈ after.images

section Wanted

variable (cutoff : Time) (clock : String → Time) (uploadedBefore now : Time) {db : Db}

/-- An item that stays keeps its dish, so nothing it names goes with a dish. -/
theorem goesWithDish_eq_false {i : OrderItemRow} (hi : i ∈ keep (db.itemGoes cutoff) db.orderItems)
    {m : MenuItemModificationRow} (hdish : m.menuItemID = i.menuItemID) :
    db.goesWithDish cutoff m = false := by
  rw [goesWithDish, dangling_eq_false]
  intro k hk
  refine gone_eq_false.2 fun d hd hkey => ?_
  have hid : i.menuItemID = d.id := by rw [← hdish, hkey]; exact Option.some.inj hk
  by_contra hgoes
  exact menuItemID_ne_of_goes (by simpa using hgoes) i hi hid

/-- No reference to a modification is cleared on the snapshots that stay. -/
theorem final_snapshots (h : db.Valid) (hown : db.SnapshotsOfOwnDish) :
    (db.afterAPITokens cutoff clock uploadedBefore now).orderItemModifications =
      keep (db.snapshotGoes cutoff) db.orderItemModifications := by
  rw [final_orderItemModifications]
  refine setNull_eq_self fun s hs => ?_
  obtain ⟨hmem, hstays⟩ := mem_keep.1 hs
  -- the item the snapshot is on stays as well
  obtain ⟨i, hi, hid⟩ := h.refs.snapshotItem s hmem s.orderItemID rfl
  have hi' : db.itemGoes cutoff i = false :=
    gone_eq_false.1 (dangling_eq_false.1 hstays s.orderItemID rfl) i hi hid
  rw [dangling_eq_false]
  intro k hk
  refine gone_eq_false.2 fun m hm hkey => ?_
  have hdish := hown s hmem m (mem_keep.1 hm).1 (by rw [hk, hkey]) i hi hid
  exact goesWithDish_eq_false cutoff (mem_keep.2 ⟨hi, hi'⟩) hdish

theorem final_appUsers :
    (db.afterAPITokens cutoff clock uploadedBefore now).appUsers = db.appUsers := by
  simp [afterAPITokens, afterSessions, afterImages, afterRestaurants_eq, afterCategories,
    afterMenuItems, afterModifications, afterOrders]

theorem final_itemsOf (hkeys : db.Keys) {o : FoodOrderRow} (ho : o ∈ db.foodOrders)
    (hwithin : expiredOrder cutoff o = false) :
    (db.afterAPITokens cutoff clock uploadedBefore now).itemsOf o.id = db.itemsOf o.id := by
  rw [itemsOf, final_orderItems]
  refine filter_keep fun i _ hi => ?_
  have hi : i.orderID = o.id := by simpa using hi
  rw [itemGoes, dangling_eq_false]
  intro k hk
  refine gone_eq_false.2 fun o' ho' hkey => ?_
  have hsame : o' = o := List.inj_on_of_nodup_map hkeys.foodOrders ho' ho
    (by rw [hkey, ← hi]; exact (Option.some.inj hk).symm)
  exact hsame ▸ hwithin

theorem final_modificationsOf (h : db.Valid) (hown : db.SnapshotsOfOwnDish) {i : OrderItemRow}
    (hi : i ∈ db.orderItems) (hstays : db.itemGoes cutoff i = false) :
    (db.afterAPITokens cutoff clock uploadedBefore now).modificationsOf i.id =
      db.modificationsOf i.id := by
  rw [modificationsOf, final_snapshots cutoff clock uploadedBefore now h hown]
  refine filter_keep fun s _ hs => ?_
  have hs : s.orderItemID = i.id := by simpa using hs
  rw [snapshotGoes, dangling_eq_false]
  intro k hk
  refine gone_eq_false.2 fun i' hi' hkey => ?_
  have hsame : i' = i := List.inj_on_of_nodup_map h.keys.orderItems hi' hi
    (by rw [hkey, ← hs]; exact (Option.some.inj hk).symm)
  exact hsame ▸ hstays

/-- The page of an order whose items and snapshots stay lists the same. -/
theorem listOrderItems_congr {db after : Db} (rt : Runtime) (orderID : UUID)
    (husers : after.appUsers = db.appUsers) (hitems : after.itemsOf orderID = db.itemsOf orderID)
    (hsnapshots : ∀ i ∈ db.itemsOf orderID, after.modificationsOf i.id = db.modificationsOf i.id) :
    after.listOrderItems rt orderID = db.listOrderItems rt orderID := by
  have hscan : after.scanOrderItem = db.scanOrderItem := by
    funext i
    simp only [scanOrderItem, userByID, husers]
  have hrows : after.orderItemRows orderID = db.orderItemRows orderID := by
    rw [orderItemRows, orderItemRows, hitems, hscan]
  rw [listOrderItems, listOrderItems, hrows, loadModifications, loadModifications]
  refine List.map_congr_left fun item hitem => ?_
  -- a listed item has the id of a row
  obtain ⟨row, hrow, hscanned⟩ := List.mem_filterMap.1 hitem
  have hid : item.id = row.id := by
    obtain ⟨u, -, hu⟩ := Option.bind_eq_some_iff.1 hscanned
    cases hu
    rfl
  rw [hid, hsnapshots row ((sliceStable_perm _ _).mem_iff.1 hrow)]

end Wanted

end Db

/-- **A run keeps everything that is still wanted.** -/
theorem cleanup_keepsWanted (rt : Runtime) (clock : String → Time) (retention : Duration)
    (now : Time) (db : Db) (h : db.Valid) (hown : db.SnapshotsOfOwnDish) :
    db.KeepsWanted rt retention now (cleanup clock retention now false db).db := by
  rw [cleanup_real]
  set cutoff := pgTime (now - retention) with hcutoff
  set uploadedBefore := pgTime (now - imageGrace) with huploadedBefore
  have horders : ∀ o ∈ db.foodOrders, now - retention ≤ o.deadlineAt →
      Db.expiredOrder cutoff o = false := by
    intro o _ hwithin
    rw [Db.expiredOrder, decide_eq_false_iff_not, not_lt]
    exact (pgTime_le _).trans hwithin
  have hitem : ∀ o ∈ db.foodOrders, Db.expiredOrder cutoff o = false → ∀ i ∈ db.itemsOf o.id,
      i ∈ db.orderItems ∧ db.itemGoes cutoff i = false := by
    intro o ho hwithin i hi
    have hfinal := Db.final_itemsOf cutoff clock uploadedBefore now h.keys ho hwithin
    rw [← hfinal, Db.itemsOf, Db.final_orderItems] at hi
    exact mem_keep.1 (List.mem_filter.1 hi).1
  constructor
  case orders =>
    intro o ho hwithin
    have hstays := horders o ho hwithin
    have hitems := Db.final_itemsOf cutoff clock uploadedBefore now h.keys ho hstays
    have hsnapshots : ∀ i ∈ db.itemsOf o.id, _ := fun i hi =>
      Db.final_modificationsOf cutoff clock uploadedBefore now h hown
        (hitem o ho hstays i hi).1 (hitem o ho hstays i hi).2
    refine ⟨?_, hitems, hsnapshots, ?_⟩
    · rw [Db.final_foodOrders]
      exact mem_keep.2 ⟨ho, hstays⟩
    · exact Db.listOrderItems_congr rt o.id (Db.final_appUsers cutoff clock uploadedBefore now)
        hitems hsnapshots
  case livingRestaurants =>
    intro r hr hliving
    rw [Db.final_restaurants]
    exact mem_keep.2 ⟨hr, by simp [Db.restaurantGoes, hliving]⟩
  case livingCategories =>
    intro c hc hliving
    rw [Db.final_menuCategories]
    exact mem_keep.2 ⟨hc, by simp [Db.categoryGoes, hliving]⟩
  case livingMenuItems =>
    intro m hm hliving
    rw [Db.final_menuItems]
    exact mem_keep.2 ⟨hm, by simp [Db.menuItemGoes, hliving]⟩
  case livingModifications =>
    rintro m hm hliving ⟨d, hd, hdish⟩
    rw [Db.final_menuItems] at hd
    rw [Db.final_menuItemModifications, mem_keep, mem_keep]
    refine ⟨⟨hm, by simp [Db.modificationGoes, hliving]⟩, ?_⟩
    rw [Db.goesWithDish, dangling_eq_false]
    intro k hk
    refine gone_eq_false.2 fun d' hd' hkey => ?_
    have hsame : d' = d := List.inj_on_of_nodup_map h.keys.menuItems hd' (mem_keep.1 hd).1
      (by rw [hkey, hdish]; exact (Option.some.inj hk).symm)
    exact hsame ▸ (mem_keep.1 hd).2
  case restaurantsReferred =>
    intro r hr hreferred
    rw [Db.final_foodOrders, Db.final_menuItems] at hreferred
    rw [Db.final_restaurants]
    refine mem_keep.2 ⟨hr, Bool.eq_false_iff.2 fun hgoes => ?_⟩
    obtain ⟨hfree, hfree', -⟩ := Db.restaurantID_ne_of_goes hgoes
    rcases hreferred with ⟨o, ho, hat⟩ | ⟨m, hm, hat⟩
    · exact hfree o ho hat
    · exact hfree' m hm hat
  case categoriesReferred =>
    rintro c hc ⟨m, hm, hin⟩
    rw [Db.final_menuItems] at hm
    rw [Db.final_menuCategories]
    exact mem_keep.2 ⟨hc, Bool.eq_false_iff.2 fun hgoes => Db.categoryID_ne_of_goes hgoes m hm hin⟩
  case menuItemsReferred =>
    rintro m hm ⟨i, hi, hof⟩
    rw [Db.final_orderItems] at hi
    rw [Db.final_menuItems]
    exact mem_keep.2 ⟨hm, Bool.eq_false_iff.2 fun hgoes => Db.menuItemID_ne_of_goes hgoes i hi hof⟩
  case modificationsReferred =>
    rintro m hm ⟨s, hs, hnames⟩
    rw [Db.final_snapshots cutoff clock uploadedBefore now h hown] at hs
    rw [Db.final_menuItemModifications, mem_keep, mem_keep]
    refine ⟨⟨hm, Bool.eq_false_iff.2 fun hgoes => Db.modificationID_ne_of_goes hgoes s hs hnames⟩, ?_⟩
    obtain ⟨hmem, hstays⟩ := mem_keep.1 hs
    obtain ⟨i, hi, hid⟩ := h.refs.snapshotItem s hmem s.orderItemID rfl
    have hi' := gone_eq_false.1 (dangling_eq_false.1 hstays s.orderItemID rfl) i hi hid
    exact Db.goesWithDish_eq_false cutoff (mem_keep.2 ⟨hi, hi'⟩) (hown s hmem m hm hnames i hi hid)
  case images =>
    intro i hi hwanted
    rw [Db.final_restaurants, Db.final_menuItems] at hwanted
    rw [Db.final_images]
    refine mem_keep.2 ⟨hi, Bool.eq_false_iff.2 fun hgoes => ?_⟩
    obtain ⟨hlogos, hpictures⟩ := Db.imageID_ne_of_goes hgoes
    rcases hwanted with ⟨r, hr, hshows⟩ | ⟨m, hm, hshows⟩ | hrecent
    · exact hlogos r hr hshows
    · exact hpictures m hm hshows
    · simp only [Db.imageGoes, Bool.and_eq_true, decide_eq_true_eq] at hgoes
      exact absurd hgoes.1.1 (not_lt.2 ((pgTime_le _).trans hrecent))

/-- At a retention that covers the order, the example loses nothing. -/
theorem cleanup_keepsWanted_heldByOldOrder :
    heldByOldOrder.KeepsWanted Runtime.ascii (72 * Time.hour) (48 * Time.hour)
      (cleanup (fun _ => 0) (72 * Time.hour) (48 * Time.hour) false heldByOldOrder).db :=
  cleanup_keepsWanted Runtime.ascii (fun _ => 0) (72 * Time.hour) (48 * Time.hour) heldByOldOrder
    heldByOldOrder_valid (by decide)

end Doenerstag
