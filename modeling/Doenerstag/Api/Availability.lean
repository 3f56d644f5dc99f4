import Doenerstag.Api.MenuItems
import Doenerstag.Db.Availability
import Doenerstag.Lib.Failure

/-!
# Availability on the menu (`internal/api/availability.go`)

`decorateItems` gives each dish of a menu its filters, and, when a moment was asked about, the
verdict for it. `AddOrderItem` decides on its own queries whether a dish is served at the order's
time.

* `availableAt_congr` — only which filters there are matters, not their order;
* `menu_agrees_with_till` — **the menu says that a dish is available at a moment exactly when an
  order for that moment takes it.**
-/

namespace Doenerstag

open ReadCommitted Prog

/-! ## What a filter looks like in an answer -/

/-- `clockString`: minutes since midnight as `HH:MM`. -/
def clockString (minutes : Int) : String :=
  padded 2 (minutes / 60) ++ ":" ++ padded 2 (minutes % 60)

structure AvailabilityBody where
  id : String
  restaurantID : String
  name : String
  onDate : Option String
  weekdays : List Int
  startTime : Option String
  endTime : Option String
  sortOrder : Int64
  deriving DecidableEq, Repr

def publicAvailability (f : AvailabilityFilter) : AvailabilityBody :=
  { id := f.id.string
    restaurantID := f.restaurantID.string
    name := f.name
    onDate := f.onDate.map fun (year, month, day) =>
      padded 4 year ++ "-" ++ padded 2 month ++ "-" ++ padded 2 day
    weekdays := f.weekdays
    startTime := f.startTime.map clockString
    endTime := f.endTime.map clockString
    sortOrder := f.sortOrder }

/-- `menuItemBody`: the dish, and when the kitchen makes it. -/
structure MenuItemBody where
  item : MenuItem
  availability : List AvailabilityBody
  /-- nothing when no moment was asked about -/
  availableAt : Option Bool
  deriving DecidableEq, Repr

/-- `publicMenuItem`, before `decorateItems`. -/
def publicMenuItem (m : MenuItem) : MenuItemBody :=
  { item := m, availability := [], availableAt := none }

/-! ## The verdict -/

namespace MenuHandlers

variable (h : MenuHandlers)

/-- The rule, or true when no moment was asked about. -/
def availableAt (moment : Option Time) (category item : List AvailabilityFilter) : Bool :=
  match moment with
  | none => true
  | some t => itemAvailableAt h.rt category item t

/-- One round of the loop of `decorateItems`. -/
def decorate (moment : Option Time) (byItem byCategory : UUID → List AvailabilityFilter)
    (body : MenuItemBody) (item : MenuItem) : MenuItemBody :=
  let own := byItem item.id
  let category := (item.categoryID.map byCategory).getD []
  { body with
    availability := own.map publicAvailability
    availableAt :=
      if moment.isNone then body.availableAt else some (h.availableAt moment category own) }

inductive DecorateStmt where
  | byItem
  | byCategory
  deriving DecidableEq, Repr

/-- `decorateItems`; `bodies` runs parallel to `items`, and `moment` is the query's `at`. -/
def decorateItems (moment : String) (restaurantID : UUID) (bodies : List MenuItemBody)
    (items : List MenuItem) : Handler DecorateStmt (List MenuItemBody) := do
  let moment ← .ofExcept (optionalTime h.rt moment "at")
  let byItem ← ((query .byItem fun db =>
    db.filtersByMenuItem h.rt restaurantID).mapError otherError).mapError databaseUnavailable
  let byCategory ← ((query .byCategory fun db =>
    db.filtersByCategory h.rt restaurantID).mapError otherError).mapError databaseUnavailable
  pure (bodies.zipWith (h.decorate moment byItem byCategory) items)

end MenuHandlers

/-! ## The two decisions agree -/

/-- Whether any of the filters lets a moment through does not depend on their order. -/
theorem availableAt_congr {rt : Runtime} {filters filters' : List AvailabilityFilter} {t : Time}
    (hsame : ∀ f, f ∈ filters ↔ f ∈ filters') :
    availableAt rt filters t = availableAt rt filters' t := by
  have hany : (filters.any fun f => f.matches rt t) = filters'.any fun f => f.matches rt t := by
    rw [Bool.eq_iff_iff, List.any_eq_true, List.any_eq_true]
    simp only [hsame]
  have hempty : filters.isEmpty = filters'.isEmpty := by
    rw [Bool.eq_iff_iff, List.isEmpty_iff, List.isEmpty_iff, List.eq_nil_iff_forall_not_mem,
      List.eq_nil_iff_forall_not_mem]
    simp only [hsame]
  rw [availableAt, hany, hempty, availableAt]

/-- The decision of `itemServedAt`, as a function of the tables. -/
def Db.servedAt (db : Db) (rt : Runtime) (m : MenuItemRow) (t : Time) : Bool :=
  itemAvailableAt rt ((m.categoryID.map (db.filtersForCategory rt)).getD [])
    (db.filtersForMenuItem rt m.id) t

/-- The groups of the bulk queries say the same of a dish as the queries for it alone. -/
theorem servedAt_bulk {db : Db} (hvalid : db.Valid) {rt : Runtime} {m : MenuItemRow}
    (hm : m ∈ db.menuItems) (t : Time) :
    itemAvailableAt rt ((m.categoryID.map (db.filtersByCategory rt m.restaurantID)).getD [])
      (db.filtersByMenuItem rt m.restaurantID m.id) t = db.servedAt rt m t := by
  have hitem : availableAt rt (db.filtersByMenuItem rt m.restaurantID m.id) t =
      availableAt rt (db.filtersForMenuItem rt m.id) t :=
    availableAt_congr fun f => Db.mem_filtersByMenuItem hm
  have hcategory :
      availableAt rt ((m.categoryID.map (db.filtersByCategory rt m.restaurantID)).getD []) t =
        availableAt rt ((m.categoryID.map (db.filtersForCategory rt)).getD []) t := by
    cases hid : m.categoryID with
    | none => rfl
    | some categoryID =>
      -- the schema keeps a dish out of another restaurant's category
      obtain ⟨c, hc, hkey⟩ := hvalid.refs.menuItemCategory m hm (m.restaurantID, categoryID)
        (by rw [MenuItemRow.category, hid]; rfl)
      exact availableAt_congr fun f => Db.mem_filtersByCategory hc hkey
  rw [Db.servedAt, itemAvailableAt, itemAvailableAt, hitem, hcategory]

theorem decorateItems_returns {h : MenuHandlers} {w : World Db Time} {moment : String}
    {restaurantID : UUID} {bodies : List MenuItemBody} {items : List MenuItem} :
    (h.decorateItems moment restaurantID bodies items).Returns (· = w) fun decorated =>
      ∃ t, optionalTime h.rt moment "at" = .ok t ∧
        decorated = bodies.zipWith (h.decorate t (w.db.filtersByMenuItem h.rt restaurantID)
          (w.db.filtersByCategory h.rt restaurantID)) items := by
  refine .bind (.ofExcept fun t ht => ht) fun t ht => ?_
  refine .bind (A := (· = w.db.filtersByMenuItem h.rt restaurantID)) ?_ fun byItem hitem => ?_
  · exact .mapError (.mapError (query_returns fun w' hw => by rw [hw]) _) _
  refine .bind (A := (· = w.db.filtersByCategory h.rt restaurantID)) ?_ fun byCategory hcategory => ?_
  · exact .mapError (.mapError (query_returns fun w' hw => by rw [hw]) _) _
  exact returns_done.mpr ⟨t, ht, by rw [hitem, hcategory]⟩

theorem decorateItems_reads (h : MenuHandlers) (moment : String) (restaurantID : UUID)
    (bodies : List MenuItemBody) (items : List MenuItem) :
    (h.decorateItems moment restaurantID bodies items).Reads fun _ => True :=
  .bind (.ofExcept _) fun _ =>
    .bind (((query_reads trivial).mapError _).mapError _) fun _ =>
      .bind (((query_reads trivial).mapError _).mapError _) fun _ => .done _

/-! ## What an order takes -/

section Till

variable {rt : Runtime} {ω : AddOrderItemStmt → Outcome} {w : World Db Time} {tx : PgTx}
  {item : NewOrderItem} {dish : OrderableItem} {m : MenuItemRow} {fresh : FreshItem}

/-- The statements up to the decision go well. -/
structure AskedAboutItem (ω : AddOrderItemStmt → Outcome) : Prop where
  begin : ω .begin = .ok
  menuItem : ω .menuItem = .ok
  itemFilters : ω .itemFilters = .ok
  categoryFilters : ω .categoryFilters = .ok

theorem itemServedAt_run (hω : AskedAboutItem ω) (hview : tx.view w.db = .ok w.db) (t : Time) :
    (itemServedAt rt tx m.id m.categoryID t).run ω w = (.ok (w.db.servedAt rt m t), w) := by
  have hcategory : (categoryFilters rt tx m.categoryID).run ω w =
      (.ok ((m.categoryID.map (w.db.filtersForCategory rt)).getD []), w) := by
    cases m.categoryID with
    | none => rfl
    | some id =>
      rw [categoryFilters, run_mapError, Tx.run_query hω.categoryFilters hview]
      rfl
  rw [itemServedAt, run_bind, run_mapError, Tx.run_query hω.itemFilters hview]
  show (categoryFilters rt tx m.categoryID >>= _).run ω w = _
  rw [run_bind, hcategory]
  rfl

theorem Db.orderableItem_eq {db : Db} {o : FoodOrderRow} {m : MenuItemRow} {orderID menuItemID : UUID}
    (hm : db.menuItem menuItemID = some m) (ho : db.foodOrder orderID = some o)
    (hliving : m.deletedAt = none) (hrestaurant : m.restaurantID = o.restaurantID) :
    db.orderableItem orderID menuItemID =
      some { name := m.name, price := m.priceCents, available := m.available
             categoryID := m.categoryID, fulfilment := o.fulfilmentAt } := by
  unfold Db.orderableItem
  simp [hm, ho, hliving, hrestaurant]

/-- The checks of an item on the menu that has not sold out come down to the one question. -/
theorem checkOrderable_run (hω : AskedAboutItem ω) (hview : tx.view w.db = .ok w.db)
    (hdish : w.db.orderableItem item.orderID item.menuItemID = some dish)
    (havailable : dish.available = true) (hid : item.menuItemID = m.id)
    (hcategory : dish.categoryID = m.categoryID) :
    (checkOrderable rt tx item).run ω w =
      (if w.db.servedAt rt m dish.fulfilment then .ok dish else .error .itemNotServedThen, w) := by
  rw [checkOrderable, run_bind, run_mapError, Tx.run_queryRow hω.menuItem hview hdish]
  show (Prog.require dish.available DbError.itemUnavailable >>= _).run ω w = _
  rw [run_bind, run_require, if_pos havailable, hid, hcategory]
  show (itemServedAt rt tx m.id m.categoryID dish.fulfilment >>= _).run ω w = _
  rw [run_bind, itemServedAt_run hω hview]
  show (Prog.require (w.db.servedAt rt m dish.fulfilment) DbError.itemNotServedThen >>= _).run ω w = _
  rw [run_bind, run_require]
  split_ifs
  · rfl
  · rfl

theorem insertModifications_throws (tx : PgTx) :
    (insertModifications fresh tx fresh.id item.menuItemID item.modificationIDs).Throws
      (· ≠ .itemNotServedThen) := by
  have hinserts : ∀ (rows : List MenuItemModificationRow) (tx : PgTx) (k : Nat),
      (insertSnapshots fresh fresh.id tx k rows).Throws (· ≠ .itemNotServedThen) := by
    intro rows
    induction rows with
    | nil => exact fun _ _ => .done _
    | cons s rest ih => exact fun _ _ => .bind (.mapError _ nofun) fun tx => ih tx _
  unfold insertModifications
  split_ifs
  · exact .done _
  · exact .bind (.mapError _ nofun) fun found => .bind (.require nofun) fun _ => hinserts found tx 0

theorem orderItemByID_throws (id : UUID) :
    (orderItemByID rt id).Throws (· ≠ .itemNotServedThen) := by
  have hscan : ∀ e, scanError e ≠ .itemNotServedThen := by
    intro e
    unfold scanError
    split <;> decide
  refine .bind (.mapError _ hscan) fun i => .bind ?_ fun _ => .done _
  unfold loadModifications
  split_ifs
  · exact .done _
  · exact .mapError _ nofun

/-- **The till.** Of an item on the menu that has not sold out, an order hears that it is not served
then exactly when its filters and its category's say so. -/
theorem addOrderItem_itemNotServedThen (hω : AskedAboutItem ω)
    (hdish : w.db.orderableItem item.orderID item.menuItemID = some dish)
    (havailable : dish.available = true) (hid : item.menuItemID = m.id)
    (hcategory : dish.categoryID = m.categoryID) :
    ((addOrderItem rt fresh item).run ω w).1 = .error .itemNotServedThen ↔
      w.db.servedAt rt m dish.fulfilment = false := by
  have hcheck : (checkOrderable rt { began := w.now, writes := [] } item).run ω w = _ :=
    checkOrderable_run hω (Tx.view_nil w.now w.db) hdish havailable hid hcategory
  unfold addOrderItem stageOrderItem
  rw [bind_assoc, run_bind, run_mapError, run_begin hω.begin]
  show ((checkOrderable rt { began := w.now, writes := [] } item >>= _ >>= _).run ω w).1 = _ ↔ _
  rw [bind_assoc, run_bind, hcheck]
  cases hserved : w.db.servedAt rt m dish.fulfilment with
  | false =>
    simp only [Bool.false_eq_true, if_false]
  | true =>
    simp only [if_true, Bool.true_eq_false, iff_false]
    intro hx
    refine Throws.run (X := (· ≠ DbError.itemNotServedThen)) ?_ hx rfl
    -- whatever goes wrong after the checks is not the answer to this one
    refine .bind (.bind (.mapError _ nofun) fun tx => ?_) fun tx => .bind (.mapError _ nofun) ?_
    · exact (insertModifications_throws tx).within _
    · exact fun _ => (orderItemByID_throws _).within _

end Till

/-- **The menu and the till agree.** Of a dish on the menu that has not sold out, the verdict of a
menu that was asked about the time of an order is whether the order takes it. -/
theorem menu_agrees_with_till {h : MenuHandlers} {w : World Db Time} (hvalid : w.db.Valid)
    {o : FoodOrderRow} (ho : o ∈ w.db.foodOrders) {m : MenuItemRow} (hm : m ∈ w.db.menuItems)
    (hrestaurant : m.restaurantID = o.restaurantID) (hliving : m.deletedAt = none)
    (havailable : m.available = true) {moment : String}
    (hmoment : optionalTime h.rt moment "at" = .ok (some o.fulfilmentAt))
    {ωm : MenuHandlers.DecorateStmt → Outcome} {items : List MenuItem}
    {decorated : List MenuItemBody}
    (hmenu : ((h.decorateItems moment o.restaurantID (items.map publicMenuItem) items).run ωm w).1 =
      .ok decorated)
    {body : MenuItemBody} (hbody : body ∈ decorated) (hscan : body.item = m.scan)
    {ωt : AddOrderItemStmt → Outcome} (hω : AskedAboutItem ωt) (fresh : FreshItem)
    {item : NewOrderItem} (horder : item.orderID = o.id) (hdish : item.menuItemID = m.id) :
    ∃ verdict, body.availableAt = some verdict ∧
      (verdict = true ↔
        ((addOrderItem h.rt fresh item).run ωt w).1 ≠ .error .itemNotServedThen) := by
  refine ⟨w.db.servedAt h.rt m o.fulfilmentAt, ?_, ?_⟩
  · obtain ⟨t, ht, rfl⟩ := decorateItems_returns.run (decorateItems_reads h _ _ _ _).readOnly
      rfl hmenu
    rw [hmoment, Except.ok.injEq] at ht
    subst ht
    rw [List.zipWith_map_left, List.zipWith_self, List.mem_map] at hbody
    obtain ⟨i, -, rfl⟩ := hbody
    have hi : i = m.scan := hscan
    subst hi
    show some (itemAvailableAt _ _ _ _) = some _
    rw [← servedAt_bulk hvalid hm, ← hrestaurant]
    rfl
  · have hfound : w.db.menuItem item.menuItemID = some m := by
      rw [hdish]
      exact Tables.find?_key hvalid.keys.menuItems hm
    have horderFound : w.db.foodOrder item.orderID = some o := by
      rw [horder]
      exact Tables.find?_key hvalid.keys.foodOrders ho
    have htill : ((addOrderItem h.rt fresh item).run ωt w).1 = .error .itemNotServedThen ↔ _ :=
      addOrderItem_itemNotServedThen hω
        (Db.orderableItem_eq hfound horderFound hliving hrestaurant) havailable hdish rfl
    rw [ne_eq, htill, Bool.not_eq_false]

/-! ## A dish for Fridays -/

/-- The order of `lunch` is for one second after the epoch, a Thursday, and the kebab is made on
Fridays. -/
def fridayKebab : Db :=
  { lunch with
    foodOrders := lunch.foodOrders.map fun o => { o with fulfilmentAt := Time.second }
    availabilityFilters := [{ id := ⟨7⟩, restaurantID := ⟨2⟩, name := "Fridays", onDate := none
                              weekdays := [5], startTime := none, endTime := none, sortOrder := 0 }]
    menuItemAvailability := [{ menuItemID := ⟨4⟩, filterID := ⟨7⟩ }] }

theorem fridayKebab_valid : fridayKebab.Valid where
  keys := by constructor <;> decide +kernel
  refs := by constructor <;> decide +kernel
  checks := by constructor <;> decide +kernel

theorem menu_agrees_with_till_fridayKebab :
    ∃ verdict, (some false : Option Bool) = some verdict ∧
      (verdict = true ↔
        ((addOrderItem .ascii { id := ⟨100⟩, snapshot := fun k => ⟨101 + k⟩ }
          { orderID := ⟨6⟩, userID := ⟨1⟩, menuItemID := ⟨4⟩, quantity := 1, note := ""
            modificationIDs := [] }).run (fun _ => .ok) { db := fridayKebab, now := 0 }).1 ≠
          .error .itemNotServedThen) := by
  have hmoment : optionalTime .ascii "1970-01-01T00:00:01Z" "at" = .ok (some Time.second) := by
    decide +kernel
  have hmenu : ((MenuHandlers.decorateItems { rt := .ascii } "1970-01-01T00:00:01Z" ⟨2⟩
      ((fridayKebab.menuItems.map MenuItemRow.scan).map publicMenuItem)
      (fridayKebab.menuItems.map MenuItemRow.scan)).run (fun _ => .ok)
        { db := fridayKebab, now := 0 }).1 =
      .ok [{ item := (fridayKebab.menuItems.head (by decide)).scan
             availability := fridayKebab.availabilityFilters.map fun f =>
               publicAvailability (Db.scanAvailabilityFilter f)
             availableAt := some false }] := by
    decide +kernel
  have horder : fridayKebab.foodOrders.head (by decide) ∈ fridayKebab.foodOrders := List.head_mem _
  have hdish : fridayKebab.menuItems.head (by decide) ∈ fridayKebab.menuItems := List.head_mem _
  exact menu_agrees_with_till (h := { rt := .ascii }) (w := { db := fridayKebab, now := 0 })
    fridayKebab_valid horder hdish rfl rfl rfl hmoment hmenu List.mem_cons_self rfl
    ⟨rfl, rfl, rfl, rfl⟩ _ rfl rfl

end Doenerstag
