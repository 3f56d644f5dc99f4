import Doenerstag.Db.Orders

/-!
# The menu an item is snapshotted from

`AddOrderItem` reads the price of the dish in one statement and the price deltas of the selected
modifications in a later one. Under READ COMMITTED each sees its own menu.

* `Db.menuPrices`, `Db.storedPrices` — the prices on the menu, and on a stored item.
* `MenuStays` — no edit moves on to other deltas once the price that was read is gone.
* `storedPrices_oneMenu` — **in every run that keeps to it between the two reads, the prices stored
  by the commit are those of one state that existed during the call.**
* `storedPrices_halfApplied` — two edits between the reads, and an item with the old price and the
  new delta.
-/

namespace Doenerstag

open ReadCommitted Prog Tables

/-! ## Prices -/

def OrderItemModificationRow.priced (m : OrderItemModificationRow) : Option UUID × Int64 :=
  (m.modificationID, m.priceDeltaCents)

def MenuItemModificationRow.priced (m : MenuItemModificationRow) : Option UUID × Int64 :=
  (some m.id, m.priceDeltaCents)

namespace Db

/-- The price of a dish that is not deleted. -/
def livingPrice (db : Db) (menuItemID : UUID) : Option Int64 :=
  ((db.menuItem menuItemID).filter fun m => m.deletedAt.isNone).map MenuItemRow.priceCents

/-- The deltas of the selected modifications of a dish that are not deleted. -/
def selectedDeltas (db : Db) (ids : List UUID) (menuItemID : UUID) : List (Option UUID × Int64) :=
  (db.selectedModifications ids menuItemID).map MenuItemModificationRow.priced

/-- What the menu asks for an item: the price of the dish, and the deltas. -/
def menuPrices (db : Db) (item : NewOrderItem) : Option (Int64 × List (Option UUID × Int64)) :=
  (db.livingPrice item.menuItemID).map fun price =>
    (price, db.selectedDeltas item.modificationIDs item.menuItemID)

/-- What is stored with an item: the unit price, and the deltas. -/
def storedPrices (db : Db) (id : UUID) : Option (Int64 × List (Option UUID × Int64)) :=
  (db.orderItem id).map fun row =>
    (row.unitPriceCents, (db.modificationsOf id).map OrderItemModificationRow.priced)

/-- Every snapshot belongs to an item that is there, as the foreign key says. -/
def SnapshotsRefer (db : Db) : Prop :=
  Refers OrderItemModificationRow.orderItem OrderItemRow.id db.orderItemModifications db.orderItems

end Db

/-! ## What is staged -/

theorem snapshotRows_priced (fresh : FreshItem) (itemID : UUID) (k : Nat)
    (found : List MenuItemModificationRow) :
    (snapshotRows fresh itemID k found).map OrderItemModificationRow.priced =
      found.map MenuItemModificationRow.priced := by
  induction found generalizing k with
  | nil => rfl
  | cons s rest ih =>
    rw [snapshotRows, List.map_cons, List.map_cons, ih]
    rfl

/-- **What is stored** when an item and its snapshots are committed where there was none. -/
theorem storedPrices_view (row : OrderItemRow) {fresh : FreshItem}
    {found : List MenuItemModificationRow} {db db' : Db} (hrefer : db.SnapshotsRefer)
    (hnone : db.orderItem row.id = none)
    (h : (Db.insertOrderItem row :: (snapshotRows fresh row.id 0 found).map
      Db.insertOrderItemModification).foldlM (fun db u => u db) db = .ok db') :
    db'.storedPrices row.id = some (row.unitPriceCents, found.map MenuItemModificationRow.priced) := by
  obtain ⟨next, hu, hrest⟩ := writes_cons_eq_ok h
  rw [snapshots_view hrest]
  unfold Db.insertOrderItem at hu
  split_ifs at hu
  cases hu
  rw [Db.orderItem] at hnone
  have hold : db.modificationsOf row.id = [] := by
    refine List.filter_eq_nil_iff.mpr fun m hm hsel => ?_
    obtain ⟨i, hi, hid⟩ := hrefer m hm m.orderItemID rfl
    have habsent := List.find?_eq_none.mp hnone i hi
    rw [hid] at habsent
    exact habsent hsel
  have hnew : (snapshotRows fresh row.id 0 found).filter (fun m => m.orderItemID == row.id) =
      snapshotRows fresh row.id 0 found := by
    rw [List.filter_eq_self]
    exact fun m hm => beq_iff_eq.mpr (snapshotRows_orderItemID hm)
  rw [Db.modificationsOf] at hold
  have hitem : (db.orderItems ++ [row]).find? (fun i => i.id == row.id) = some row := by
    rw [List.find?_append, hnone]
    simp
  show (((db.orderItems ++ [row]).find? fun i => i.id == row.id).map fun r => (r.unitPriceCents,
    ((db.orderItemModifications ++ snapshotRows fresh row.id 0 found).filter fun m =>
      m.orderItemID == row.id).map OrderItemModificationRow.priced)) = _
  rw [hitem, Option.map_some, List.filter_append, hold, hnew, List.nil_append, snapshotRows_priced]

/-- Adding an item keeps the foreign key of the snapshots. -/
theorem stageOrderItem_refers {I : World Db Time → Prop} {rt : Runtime} {fresh : FreshItem}
    {item : NewOrderItem} :
    (stageOrderItem rt fresh item).Returns I
      (Tx.Writes fun u => ∀ db db', u db = .ok db' → db.SnapshotsRefer → db'.SnapshotsRefer) := by
  refine stageOrderItem_returns (fun dish now db db' hu hrefer m hm id hid => ?_)
    fun row _ db db' hu hrefer m hm id hid => ?_
  · unfold Db.insertOrderItem at hu
    split_ifs at hu
    cases hu
    obtain ⟨i, hi, heq⟩ := hrefer m hm id hid
    exact ⟨i, List.mem_append_left _ hi, heq⟩
  · unfold Db.insertOrderItemModification at hu
    simp only at hu
    split_ifs at hu with _ _ hknown
    cases hu
    rcases List.mem_append.mp hm with hm | hm
    · exact hrefer m hm id hid
    · rw [List.mem_singleton.mp hm] at hid
      simp only [Bool.or_eq_true, not_or, Option.isNone_iff_eq_none] at hknown
      obtain ⟨i, hi⟩ := Option.ne_none_iff_exists'.mp hknown.1
      cases hid
      exact ⟨i, List.mem_of_find?_eq_some hi, Db.orderItem_id _ hi⟩

/-! ## The two reads -/

/-- The dish has been read, its modifications have not. -/
def AddOrderItemStmt.HalfRead : AddOrderItemStmt → Prop
  | .itemFilters => True
  | .categoryFilters => True
  | .insert => True
  | .modifications .read => True
  | _ => False

/-- A change after which the deltas are the ones they were, or the dish still has the price. -/
def MenuStays (item : NewOrderItem) (price : Int64) (w w' : World Db Time) : Prop :=
  w'.db.selectedDeltas item.modificationIDs item.menuItemID =
      w.db.selectedDeltas item.modificationIDs item.menuItemID ∨
    w'.db.livingPrice item.menuItemID = some price

/-- What the call relies on, waiting at a statement, when another moves. -/
def AddOrderItemStmt.MenuRely (item : NewOrderItem) (price : Int64) (l : AddOrderItemStmt)
    (w w' : World Db Time) : Prop :=
  l.HalfRead → MenuStays item price w w'

section Call

variable {rt : Runtime} {fresh : FreshItem} {item : NewOrderItem} {price : Int64}
  {S : World Db Time → Prop}

/-- The call stands in a state of the run, and some state of the run has the price that was read
with the deltas of now. -/
structure HalfOf (S : World Db Time → Prop) (item : NewOrderItem) (price : Int64)
    (dish : OrderableItem) (w : World Db Time) : Prop where
  now : S w
  whole : dish.price = price → ∃ s, S s ∧ s.db.livingPrice item.menuItemID = some price ∧
    s.db.selectedDeltas item.modificationIDs item.menuItemID =
      w.db.selectedDeltas item.modificationIDs item.menuItemID

theorem HalfOf.stays {dish : OrderableItem} {w w' : World Db Time} (h : HalfOf S item price dish w)
    (hstays : MenuStays item price w w') (hS : S w') : HalfOf S item price dish w' where
  now := hS
  whole := by
    intro hdish
    rcases hstays with hdeltas | hprice
    · obtain ⟨s, hs, hp, hd⟩ := h.whole hdish
      exact ⟨s, hs, hp, hd.trans hdeltas.symm⟩
    · exact ⟨w', hS, hprice, rfl⟩

/-- The relies, in a run that goes through the states `S`. -/
abbrev relying (S : World Db Time → Prop) (item : NewOrderItem) (price : Int64)
    (l : AddOrderItemStmt) (w w' : World Db Time) : Prop := l.MenuRely item price w w' ∧ S w'

/-- What the commit stores where there was no item is on the menu of one state of the run. -/
def StoresOneMenu (S : World Db Time → Prop) (fresh : FreshItem) (item : NewOrderItem)
    (price : Int64) (l : AddOrderItemStmt) (w w' : World Db Time) : Prop :=
  l = .commit → w.db.orderItem fresh.id = none → ∀ prices, w'.db.storedPrices fresh.id = some prices →
    prices.1 = price → ∃ s, S s ∧ s.db.menuPrices item = some prices

theorem storesOneMenu_refl {l : AddOrderItemStmt} (hl : l ≠ .commit) (w : World Db Time) :
    StoresOneMenu S fresh item price l w w := fun h => absurd h hl

/-- What is staged once both have been read: the prices of one state. -/
def StagedWhole (S : World Db Time → Prop) (fresh : FreshItem) (item : NewOrderItem)
    (price : Int64) (tx : PgTx) : Prop :=
  ∃ dish now found,
    tx.writes = Db.insertOrderItem (item.row fresh.id dish now) ::
      (snapshotRows fresh fresh.id 0 found).map Db.insertOrderItemModification ∧
    (dish.price = price → ∃ s, S s ∧
      s.db.menuPrices item = some (price, found.map MenuItemModificationRow.priced))

theorem HalfOf.staged {dish : OrderableItem} {w : World Db Time} (h : HalfOf S item price dish w)
    {found : List MenuItemModificationRow}
    (hfound : found.map MenuItemModificationRow.priced =
      w.db.selectedDeltas item.modificationIDs item.menuItemID) (hdish : dish.price = price) :
    ∃ s, S s ∧ s.db.menuPrices item = some (price, found.map MenuItemModificationRow.priced) := by
  obtain ⟨s, hs, hp, hd⟩ := h.whole hdish
  refine ⟨s, hs, ?_⟩
  rw [Db.menuPrices, hp, Option.map_some, hd, hfound]

/-- Statements between the two reads. -/
theorem holds_halfRead {α : Type} {L : AddOrderItemStmt → Prop} {A : α → Prop}
    {p : DbProgram AddOrderItemStmt α} (h : p.Reads L) (hL : ∀ l, L l → l.HalfRead)
    (hA : p.Returns (fun w => w.db.SnapshotsRefer) A) {dish : OrderableItem} {w : World Db Time}
    (hhalf : HalfOf S item price dish w) :
    p.Holds (fun w => w.db.SnapshotsRefer) (relying S item price)
      (StoresOneMenu S fresh item price) (Ends fun a w => HalfOf S item price dish w ∧ A a) w := by
  refine h.ends hA (fun l w w' hl hR hhalf => hhalf.stays (hR.1 (hL l hl)) hR.2) ?_ hhalf
  rintro l w hl -
  exact storesOneMenu_refl (by rintro rfl; exact hL _ hl) w

theorem holds_readDish {tx : PgTx} (htx : tx.writes = []) {w : World Db Time} (hw : S w) :
    (checkOrderable rt tx item).Holds (fun w => w.db.SnapshotsRefer) (relying S item price)
      (StoresOneMenu S fresh item price) (Ends fun dish w => HalfOf S item price dish w) w := by
  refine holds_seq (M := fun dish => HalfOf S item price dish) (ends_mapError
    (holds_read fun w' hwait _ => ⟨storesOneMenu_refl (l := .menuItem) nofun w', fun e dish hdish => ?_⟩))
    fun dish w hhalf => ?_
  · have hw' : S w' := star_keeps (fun _ _ hR _ => hR.2) hwait hw
    have hrow := Tx.onView_unwritten htx hdish
    obtain ⟨m, o, hm, ho, hliving, -, rfl⟩ := Db.orderableItem_eq_some (Outcome.row_eq_ok hrow)
    refine ⟨hw', fun hprice => ⟨w', hw', ?_, rfl⟩⟩
    have hread : m.priceCents = price := hprice
    rw [Db.livingPrice, hm, Option.filter_some, if_pos hliving, Option.map_some, hread]
  · refine holds_seq (M := fun _ => HalfOf S item price dish)
      (ends_require fun _ => hhalf) fun _ w hhalf => ?_
    refine holds_seq (holds_halfRead (itemServedAt_reads rt tx _ _ _) (fun l hl => ?_)
      (.trivially _) hhalf) fun _ w hhalf => ?_
    · cases l <;> trivial
    exact holds_seq (M := fun _ => HalfOf S item price dish)
      (ends_require fun _ => hhalf.1) fun _ w hhalf => ends_done hhalf

/-- Statements after both reads: only the run goes on. -/
theorem holds_wholeRead {α : Type} {L : AddOrderItemStmt → Prop} {A : α → Prop}
    {p : DbProgram AddOrderItemStmt α} (h : p.Reads L) (hL : ∀ l, L l → l ≠ .commit)
    (hA : p.Returns (fun w => w.db.SnapshotsRefer) A) (w : World Db Time) :
    p.Holds (fun w => w.db.SnapshotsRefer) (relying S item price)
      (StoresOneMenu S fresh item price) (Ends fun a _ => A a) w :=
  (h.ends (F := fun _ => True) hA (fun _ _ _ _ _ _ => trivial)
    (fun l w hl _ => storesOneMenu_refl (hL l hl) w) trivial).mono fun _ _ hend a ha => (hend a ha).2

/-- The read of the modifications, and the snapshots of what it found. -/
theorem holds_readModifications {dish : OrderableItem} {now : Time} {tx : PgTx}
    (htx : tx.writes = [Db.insertOrderItem (item.row fresh.id dish now)]) {w : World Db Time}
    (hhalf : HalfOf S item price dish w) :
    ((insertModifications fresh tx fresh.id item.menuItemID item.modificationIDs).within
      AddOrderItemStmt.modifications).Holds (fun w => w.db.SnapshotsRefer) (relying S item price)
      (StoresOneMenu S fresh item price) (Ends fun tx _ => StagedWhole S fresh item price tx) w := by
  unfold insertModifications
  split_ifs with hids
  · -- without modifications nothing more is read
    refine ends_done ⟨dish, now, [], by rw [htx]; rfl, hhalf.staged ?_⟩
    have hnone : item.modificationIDs = [] := List.isEmpty_iff.mp hids
    rw [Db.selectedDeltas, Db.selectedModifications, hnone]
    simp
  · rw [within_bind]
    refine holds_seq (M := fun found _ => dish.price = price → ∃ s, S s ∧
      s.db.menuPrices item = some (price, found.map MenuItemModificationRow.priced))
      (holds_within (ends_mapError (holds_read fun w' hwait _ =>
        ⟨storesOneMenu_refl (l := .modifications .read) (by simp) w', fun e found hfound => ?_⟩)))
      fun found w hwhole => ?_
    · have hhalf' : HalfOf S item price dish w' :=
        star_keeps (fun _ _ hR h => h.stays (hR.1 trivial) hR.2) hwait hhalf
      obtain ⟨view, hview, hrows⟩ := Tx.onView_eq_ok hfound
      rw [Outcome.rows_eq_ok hrows]
      refine hhalf'.staged ?_
      -- the staged item does not touch the menu
      rw [Tx.view, htx] at hview
      obtain ⟨next, hinsert, hdone⟩ := writes_cons_eq_ok hview
      cases hdone
      unfold Db.insertOrderItem at hinsert
      split_ifs at hinsert
      cases hinsert
      rfl
    · rw [within_bind]
      refine holds_seq (M := fun _ _ => True) (holds_within (ends_require fun _ => trivial))
        fun _ w _ => ?_
      have hreads : ((insertSnapshots fresh fresh.id tx 0 found).within
          AddOrderItemStmt.modifications).Reads fun l => l ≠ .commit :=
        Reads.within ((insertSnapshots_reads fresh fresh.id tx 0 found).mono fun _ _ => by simp)
      refine (holds_wholeRead hreads (fun _ hl => hl)
        ((insertSnapshots_writes fresh fresh.id found tx 0).within _) w).mono ?_
      rintro r w hend tx' rfl
      refine ⟨dish, now, found, ?_, hwhole⟩
      rw [hend tx' rfl, htx]
      rfl

theorem holds_stageWhole {w : World Db Time} (hw : S w) :
    (stageOrderItem rt fresh item).Holds (fun w => w.db.SnapshotsRefer) (relying S item price)
      (StoresOneMenu S fresh item price) (Ends fun tx _ => StagedWhole S fresh item price tx) w := by
  refine holds_seq (M := fun tx w => S w ∧ tx.writes = []) (ends_mapError
    (holds_read fun w' hwait _ => ⟨storesOneMenu_refl (l := .begin) nofun w', fun e tx htx => ?_⟩))
    fun tx w hbegun => ?_
  · exact ⟨star_keeps (fun _ _ hR _ => hR.2) hwait hw, by rw [Outcome.rows_eq_ok htx]⟩
  · refine holds_seq (holds_readDish hbegun.2 hbegun.1) fun dish w hhalf => ?_
    refine holds_seq (holds_halfRead ((tx.insert_reads (L := (· = .insert)) rfl).mapError _) ?_
      ((Tx.insert_pushes tx).mapError _) hhalf) fun tx' w hstaged => ?_
    · rintro l rfl
      trivial
    · have hwrites : tx'.writes = [Db.insertOrderItem (item.row fresh.id dish tx.began)] := by
        rw [hstaged.2, Tx.push, hbegun.2]
        rfl
      exact holds_readModifications hwrites hstaged.1

/-- **A call holds**: within its relies, it stores the prices of one state of the run. -/
theorem holds_storesOneMenu {w : World Db Time} (hw : S w) :
    (addOrderItem rt fresh item).Holds (fun w => w.db.SnapshotsRefer) (relying S item price)
      (StoresOneMenu S fresh item price) (fun _ _ => True) w := by
  have hstaged : (stageOrderItem rt fresh item).Holds (fun w => w.db.SnapshotsRefer)
      (relying S item price) (StoresOneMenu S fresh item price)
      (Ends fun tx _ => StagedWhole S fresh item price tx ∧ tx.Writes fun u =>
        ∀ db db', u db = .ok db' → db.SnapshotsRefer → db'.SnapshotsRefer) w :=
    ((holds_stageWhole hw).returns stageOrderItem_refers).mono fun _ _ hend tx htx =>
      ⟨hend.1 tx htx, hend.2 tx htx⟩
  refine (holds_seq (N := fun _ _ => True) hstaged ?_).ends
  · rintro tx w ⟨⟨dish, now, found, hwrites, hwhole⟩, hrefers⟩
    refine holds_seq (M := fun _ _ => True) (ends_mapError (holds_write fun w' _ hrefer e => ?_))
      fun _ w _ => ?_
    · cases hcommit : tx.committed e w'.db with
      | error x =>
        refine ⟨hrefer, fun _ hnone prices hstored => ?_, fun _ _ => trivial⟩
        have hnothing : w'.db.storedPrices fresh.id = none := by
          rw [Db.storedPrices, hnone, Option.map_none]
        rw [World.after, hnothing] at hstored
        cases hstored
      | ok r =>
        have hview := tx.committed_eq_ok hcommit
        refine ⟨?_, fun _ hnone prices hstored hprice => ?_, fun _ _ => trivial⟩
        · exact Tx.Writes.view (K := fun db db' => db.SnapshotsRefer → db'.SnapshotsRefer)
            (fun _ h => h) (fun _ _ _ h h' hdb => h' (h hdb)) hrefers hview hrefer
        · rw [Tx.view, hwrites] at hview
          have hstored' := storedPrices_view (item.row fresh.id dish now) hrefer hnone hview
          have heq : some (dish.price, found.map MenuItemModificationRow.priced) = some prices :=
            hstored'.symm.trans hstored
          cases heq
          obtain ⟨s, hs, hmenu⟩ := hwhole hprice
          exact ⟨s, hs, by rw [hmenu, ← hprice]⟩
    · have hreads : ((orderItemByID rt fresh.id).within AddOrderItemStmt.readBack).Reads
          fun l => l ≠ .commit :=
        Reads.within ((orderItemByID_reads rt fresh.id).mono fun _ _ => by simp)
      exact holds_wholeRead hreads (fun _ hl => hl) (.trivially _) w

end Call

/-! ## The call among menu edits -/

/-- What may be committed besides: anything that keeps the foreign key of the snapshots. -/
def MenuEdits (w w' : World Db Time) : Prop := w.db.SnapshotsRefer → w'.db.SnapshotsRefer

/-- The call at its start. -/
def addingItem (rt : Runtime) (fresh : FreshItem) (item : NewOrderItem) (w : World Db Time) :
    Config Unit AddOrderItemStmt Outcome (World Db Time) DbError OrderItem where
  state := w
  procs := fun _ => addOrderItem rt fresh item

/-- **One menu.** The prices a commit stores for a new item were asked by the menu together, in one
state since the call began, if every edit between its two reads leaves the deltas alone or the dish
at the price that was read. -/
theorem storedPrices_oneMenu (rt : Runtime) (fresh : FreshItem) (item : NewOrderItem)
    (w : World Db Time) (hrefer : w.db.SnapshotsRefer)
    {c c' : Config Unit AddOrderItemStmt Outcome (World Db Time) DbError OrderItem}
    {states : List (World Db Time)} {prices : Int64 × List (Option UUID × Int64)}
    (htrace : Trace MenuEdits (AddOrderItemStmt.MenuRely item prices.1)
      (addingItem rt fresh item w) states c)
    (hcommit : Step MenuEdits c (.proc () .commit) c')
    (hnone : c.state.db.orderItem fresh.id = none)
    (hstored : c'.state.db.storedPrices fresh.id = some prices) :
    ∃ s ∈ states, s.db.menuPrices item = some prices := by
  have hsafe : (addingItem rt fresh item w).Safe (fun w => w.db.SnapshotsRefer)
      (relying (· ∈ states) item prices.1) (StoresOneMenu (· ∈ states) fresh item prices.1) :=
    ⟨hrefer, fun _ => holds_storesOneMenu htrace.start_mem⟩
  have hstores := hsafe.guarantee (fun _ _ henv h => henv h) (htrace.run fun _ hs => hs) hcommit
  exact hstores rfl hnone prices hstored rfl

/-! ## A menu that is edited twice -/

/-- A kebab with extra cheese. -/
def cheeseKebab : NewOrderItem :=
  { orderID := ⟨6⟩, userID := ⟨1⟩, menuItemID := ⟨4⟩, quantity := 1, note := ""
    modificationIDs := [⟨5⟩] }

def addingCheeseKebab : Config Unit AddOrderItemStmt Outcome (World Db Time) DbError OrderItem :=
  addingItem .ascii { id := ⟨7⟩, snapshot := fun k => ⟨8 + k⟩ } cheeseKebab { db := lunch, now := 0 }

theorem lunch_snapshotsRefer : lunch.SnapshotsRefer := fun m hm => by cases hm

/-- The dish has been read, and its row staged. -/
def halfRead : Config Unit AddOrderItemStmt Outcome (World Db Time) DbError OrderItem :=
  addingCheeseKebab.advance () (.replicate 4 .ok)

/-- The modifications have been read and staged too; the next statement is the commit. -/
def wholeRead : Config Unit AddOrderItemStmt Outcome (World Db Time) DbError OrderItem :=
  halfRead.advance () (.replicate 2 .ok)

theorem wholeRead_waitsAt : (wholeRead.procs ()).waitsAt = some .commit := by decide +kernel

/-- Undisturbed, what is stored is on the menu. -/
theorem storedPrices_oneMenu_cheeseKebab :
    ∃ s ∈ addingCheeseKebab.passed () (.replicate 6 .ok) ++ [addingCheeseKebab.state],
      s.db.menuPrices cheeseKebab = some (500, [(some ⟨5⟩, 100)]) := by
  have htrace : Trace MenuEdits (AddOrderItemStmt.MenuRely cheeseKebab 500) addingCheeseKebab _ _ :=
    trace_alone (.start addingCheeseKebab) () (.replicate 6 Outcome.ok)
  exact storedPrices_oneMenu .ascii _ cheeseKebab { db := lunch, now := 0 } lunch_snapshotsRefer
    htrace (step_advance wholeRead_waitsAt Outcome.ok) (by decide +kernel) (by decide +kernel)

/-- An edit of the prices of all dishes, and one of all deltas. -/
def setPrices (cents : Int64) (w : World Db Time) : World Db Time :=
  { w with db := { w.db with
      menuItems := w.db.menuItems.map fun m => { m with priceCents := cents } } }

def setDeltas (cents : Int64) (w : World Db Time) : World Db Time :=
  { w with db := { w.db with
      menuItemModifications :=
        w.db.menuItemModifications.map fun m => { m with priceDeltaCents := cents } } }

/-- Both are made dearer between the two reads, first the dish and then the cheese. -/
def edited : Config Unit AddOrderItemStmt Outcome (World Db Time) DbError OrderItem :=
  { halfRead with state := setDeltas 200 (setPrices 600 halfRead.state) }

/-- The rest of the call, up to the commit. -/
def halfApplied : Config Unit AddOrderItemStmt Outcome (World Db Time) DbError OrderItem :=
  edited.advance () (.replicate 2 .ok)

theorem halfApplied_waitsAt : (halfApplied.procs ()).waitsAt = some .commit := by decide +kernel

/-- Without the rely, the old price is stored with the new delta. -/
theorem storedPrices_halfApplied :
    ¬ ∀ (rt : Runtime) (fresh : FreshItem) (item : NewOrderItem) (w : World Db Time),
      w.db.SnapshotsRefer →
      ∀ (c c' : Config Unit AddOrderItemStmt Outcome (World Db Time) DbError OrderItem)
        (states : List (World Db Time)) (prices : Int64 × List (Option UUID × Int64)),
      Trace MenuEdits (fun _ _ _ => True) (addingItem rt fresh item w) states c →
      Step MenuEdits c (.proc () .commit) c' → c.state.db.orderItem fresh.id = none →
      c'.state.db.storedPrices fresh.id = some prices →
      ∃ s ∈ states, s.db.menuPrices item = some prices := by
  intro hevery
  have hread : Trace MenuEdits (fun _ _ _ => True) addingCheeseKebab _ _ :=
    trace_alone (.start addingCheeseKebab) () (.replicate 4 Outcome.ok)
  have hdearer := hread.tail (.env (s := setPrices 600 halfRead.state) fun hrefer => hrefer)
    fun _ _ _ _ => trivial
  have hedited := hdearer.tail (.env (s := edited.state) fun hrefer => hrefer) fun _ _ _ _ => trivial
  have htrace := trace_alone hedited () (.replicate 2 Outcome.ok)
  obtain ⟨s, hs, hmenu⟩ := hevery .ascii _ cheeseKebab { db := lunch, now := 0 }
    lunch_snapshotsRefer _ _ _ (500, [(some ⟨5⟩, 200)]) htrace
    (step_advance (c := halfApplied) halfApplied_waitsAt Outcome.ok) (by decide +kernel)
    (by decide +kernel)
  -- no state of the trace has the two together
  revert hmenu
  revert s
  decide +kernel

end Doenerstag
