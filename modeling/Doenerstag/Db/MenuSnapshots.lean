import Doenerstag.Db.Orders
import Doenerstag.Lib.GroupFold
import Doenerstag.Lib.Transactions

/-!
# What an item snapshots of the menu

`AddOrderItem` and `UpdateOrderItem` when nobody edits the menu while they run: the rows that they leave, and
what becomes of the tables when they are refused.

* `Snapshotted` — one snapshot for each modification that was asked for, each like a living modification of
  the dish.
* `ItemShown` — the item that is returned is the row with its snapshots, at its line total.
* `selectedModifications_perm` — as many rows as were asked for are one for each.
* `addOrderItem_snapshots`, `updateOrderItem_snapshots` — **success leaves such an item.**
* `orderItems_snapshot` — **both, and that a refusal and a failure before the commit change nothing.**
-/

namespace Doenerstag

open ReadCommitted Prog

/-! ## What a call is to leave -/

/-- The snapshots are one for each modification that was asked for, each with the name and the delta of a
living modification of the dish. -/
structure Snapshotted (menu : Db) (menuItemID : UUID) (ids : List UUID)
    (rows : List OrderItemModificationRow) : Prop where
  distinct : ids.Nodup
  exactly : (rows.map OrderItemModificationRow.modificationID).Perm (ids.map some)
  faithful : ∀ s ∈ rows, ∃ m ∈ menu.menuItemModifications, s.modificationID = some m.id ∧
    m.menuItemID = menuItemID ∧ m.deletedAt = none ∧ s.name = m.name ∧ s.priceDeltaCents = m.priceDeltaCents

/-- The item as it is returned: its row, its snapshots, and the line total of the two -/
structure ItemShown (db : Db) (row : OrderItemRow) (item : OrderItem) : Prop where
  id : item.id = row.id
  quantity : item.quantity = row.quantity
  unitPrice : item.unitPriceCents = row.unitPriceCents
  snapshots : item.modifications.Perm ((db.modificationsOf row.id).map Db.scanModification)
  lineTotal : item.lineTotalCents = row.quantity * (row.unitPriceCents +
    ((db.modificationsOf row.id).map OrderItemModificationRow.priceDeltaCents).sum)

/-- The dish can be ordered: it is on the menu of the order's restaurant, not sold out, and served then. -/
structure Orderable (rt : Runtime) (menu : Db) (item : NewOrderItem) (dish : OrderableItem) : Prop where
  onMenu : menu.orderableItem item.orderID item.menuItemID = some dish
  available : dish.available = true
  served : itemAvailableAt rt ((dish.categoryID.map (menu.filtersForCategory rt)).getD [])
    (menu.filtersForMenuItem rt item.menuItemID) dish.fulfilment = true

/-! ## The selected modifications -/

section Selected

variable {db : Db} {ids : List UUID} {menuItemID : UUID} {fresh : FreshItem} {itemID : UUID}

/-- **As many rows as were asked for are one for each**: a repeated id, or one that names no living
modification of the dish, makes them fewer. -/
theorem selectedModifications_perm (hkeys : (db.menuItemModifications.map MenuItemModificationRow.id).Nodup)
    (hcount : (db.selectedModifications ids menuItemID).length = ids.length) :
    ids.Nodup ∧ ((db.selectedModifications ids menuItemID).map MenuItemModificationRow.id).Perm ids := by
  have hnodup : ((db.selectedModifications ids menuItemID).map MenuItemModificationRow.id).Nodup :=
    hkeys.sublist (List.filter_sublist.map _)
  have hsubset : (db.selectedModifications ids menuItemID).map MenuItemModificationRow.id ⊆ ids := by
    intro id hid
    obtain ⟨m, hm, rfl⟩ := List.mem_map.mp hid
    have hsel := List.of_mem_filter hm
    simp only [Bool.and_eq_true, List.contains_iff_mem] at hsel
    exact hsel.1.1
  have hperm := (List.subperm_of_subset hnodup hsubset).perm_of_length_le (by rw [List.length_map, hcount])
  exact ⟨hperm.nodup_iff.mp hnodup, hperm⟩

theorem snapshotRows_modificationID (k : Nat) (found : List MenuItemModificationRow) :
    (snapshotRows fresh itemID k found).map OrderItemModificationRow.modificationID =
      (found.map MenuItemModificationRow.id).map some := by
  induction found generalizing k with
  | nil => rfl
  | cons s rest ih =>
    rw [snapshotRows, List.map_cons, List.map_cons, List.map_cons, ih]

/-- A snapshot is of one of the modifications. -/
theorem mem_snapshotRows {k : Nat} {found : List MenuItemModificationRow} {s : OrderItemModificationRow}
    (h : s ∈ snapshotRows fresh itemID k found) : ∃ m ∈ found, s.modificationID = some m.id ∧
      s.name = m.name ∧ s.priceDeltaCents = m.priceDeltaCents := by
  induction found generalizing k with
  | nil => cases h
  | cons m rest ih =>
    rcases List.mem_cons.mp h with rfl | h
    · exact ⟨m, List.mem_cons_self, rfl, rfl, rfl⟩
    · obtain ⟨m', hm', hsame⟩ := ih h
      exact ⟨m', List.mem_cons_of_mem _ hm', hsame⟩

/-- The snapshots of what was selected -/
theorem snapshotted_snapshotRows (db : Db) (hkeys : (db.menuItemModifications.map MenuItemModificationRow.id).Nodup)
    (hcount : (db.selectedModifications ids menuItemID).length = ids.length) :
    Snapshotted db menuItemID ids
      (snapshotRows fresh itemID 0 (db.selectedModifications ids menuItemID)) := by
  obtain ⟨hdistinct, hperm⟩ := selectedModifications_perm hkeys hcount
  refine ⟨hdistinct, ?_, fun s hs => ?_⟩
  · rw [snapshotRows_modificationID]
    exact hperm.map some
  · obtain ⟨m, hm, hid, hname, hdelta⟩ := mem_snapshotRows hs
    obtain ⟨hmem, hsel⟩ := List.mem_filter.mp hm
    simp only [Bool.and_eq_true, beq_iff_eq, Option.isNone_iff_eq_none] at hsel
    exact ⟨m, hmem, hid, hsel.1.2, hsel.2, hname, hdelta⟩

end Selected

/-! ## The statements -/

section Statements

variable {rt : Runtime} {fresh : FreshItem} {item : NewOrderItem} {itemID menuItemID : UUID} {ids : List UUID}
  {tx : PgTx} {view : Db} {w : World Db Time}

/-- The loop appends the snapshots to what the transaction sees. -/
theorem insertSnapshots_found (hview : tx.view w.db = .ok view) (k : Nat)
    (found : List MenuItemModificationRow) :
    ((insertSnapshots fresh itemID tx k found).under Outcome.found).Returns (· = w) fun tx' =>
      tx'.view w.db = .ok (view.setOrderItemModifications
        (view.orderItemModifications ++ snapshotRows fresh itemID k found)) := by
  induction found generalizing tx view k with
  | nil =>
    refine returns_done.mpr ?_
    rw [snapshotRows, List.append_nil]
    exact hview
  | cons s rest ih =>
    rw [insertSnapshots, under_bind, under_mapError]
    refine .bind ((Tx.insert_found hview _ _).mapError _) fun tx' hinserted => ?_
    obtain ⟨-, view', hview', hinsert⟩ := hinserted
    refine (ih hview' (k + 1)).mono fun tx'' hview'' => ?_
    unfold Db.insertOrderItemModification at hinsert
    simp only at hinsert
    split_ifs at hinsert
    cases hinsert
    rw [hview'', Db.setOrderItemModifications_orderItemModifications, List.append_assoc]
    rfl

/-- What `insertModifications` adds -/
theorem insertModifications_found (hview : tx.view w.db = .ok view) :
    ((insertModifications fresh tx itemID menuItemID ids).under Outcome.found).Returns (· = w) fun tx' =>
      (view.selectedModifications ids menuItemID).length = ids.length ∧
      tx'.view w.db = .ok (view.setOrderItemModifications (view.orderItemModifications ++
        snapshotRows fresh itemID 0 (view.selectedModifications ids menuItemID))) := by
  unfold insertModifications
  split_ifs with hempty
  · have hnone : view.selectedModifications ids menuItemID = [] := by
      rw [List.isEmpty_iff.mp hempty]
      simp [Db.selectedModifications]
    refine returns_done.mpr ?_
    rw [hnone, List.isEmpty_iff.mp hempty, snapshotRows, List.append_nil]
    exact ⟨rfl, hview⟩
  · rw [under_bind, under_mapError]
    refine .bind ((Tx.query_found hview _ _).mapError _) fun found hfound => ?_
    rw [under_bind, under_require]
    refine .bind (.require _ _) fun _ hcount => (insertSnapshots_found hview 0 found).mono fun tx' hview' => ?_
    rw [← hfound]
    exact ⟨beq_iff_eq.mp hcount, hview'⟩

/-- What `AddOrderItem` has checked -/
theorem checkOrderable_found (hview : tx.view w.db = .ok view) :
    ((checkOrderable rt tx item).under Outcome.found).Returns (· = w) (Orderable rt view item) := by
  unfold checkOrderable
  rw [under_bind, under_mapError]
  refine .bind ((Tx.queryRow_found hview _ _).mapError _) fun dish hdish => ?_
  rw [under_bind, under_require]
  refine .bind (.require _ _) fun _ havailable => ?_
  rw [under_bind]
  refine .bind (A := fun served => served = itemAvailableAt rt
    ((dish.categoryID.map (view.filtersForCategory rt)).getD [])
    (view.filtersForMenuItem rt item.menuItemID) dish.fulfilment) ?_ fun served hserved => ?_
  · unfold itemServedAt
    rw [under_bind, under_mapError]
    refine .bind ((Tx.query_found hview _ _).mapError _) fun own hown => ?_
    rw [under_bind]
    refine .bind (A := (· = (dish.categoryID.map (view.filtersForCategory rt)).getD [])) ?_
      fun category hcategory => returns_done.mpr (by rw [hown, hcategory])
    unfold categoryFilters
    cases dish.categoryID with
    | none => exact returns_done.mpr rfl
    | some id =>
      rw [under_mapError]
      exact (Tx.query_found hview (fun db => db.filtersForCategory rt id) _).mapError _
  · rw [under_bind, under_require]
    refine .bind (.require _ _) fun _ hthen => returns_done.mpr ⟨hdish, havailable, ?_⟩
    rw [← hserved]
    exact hthen

end Statements

/-! ## The transactions -/

/-- What `AddOrderItem` commits -/
structure ItemAdded (rt : Runtime) (fresh : FreshItem) (item : NewOrderItem) (menu after : Db) : Prop where
  dish : ∃ dish, Orderable rt menu item dish ∧ ∃ row, after.orderItem fresh.id = some row ∧
    row.itemName = dish.name ∧ row.unitPriceCents = dish.price ∧ row.quantity = item.quantity
  snapshots : Snapshotted menu item.menuItemID item.modificationIDs (after.modificationsOf fresh.id)

/-- What `UpdateOrderItem` commits when it sets the modifications -/
structure ItemChanged (id : UUID) (change : OrderItemUpdate) (ids : List UUID) (menu after : Db) : Prop where
  row : ∃ old row, menu.orderItem id = some old ∧ after.orderItem id = some row ∧
    row.itemName = old.itemName ∧ row.unitPriceCents = old.unitPriceCents ∧
    row.quantity = change.quantity.getD old.quantity ∧
    Snapshotted menu old.menuItemID ids (after.modificationsOf id)

section Transactions

variable {rt : Runtime} {fresh : FreshItem} {item : NewOrderItem} {id actor : UUID} {change : OrderItemUpdate}
  {ids : List UUID} {w : World Db Time}

/-- The modifications of a new item are its snapshots. -/
theorem modificationsOf_append {db : Db} {rows : List OrderItemModificationRow} (hnone : db.modificationsOf id = [])
    (hrows : ∀ s ∈ rows, s.orderItemID = id) :
    (db.setOrderItemModifications (db.orderItemModifications ++ rows)).modificationsOf id = rows := by
  show (db.orderItemModifications ++ rows).filter _ = rows
  rw [List.filter_append]
  have hold : db.orderItemModifications.filter (fun m => m.orderItemID == id) = [] := hnone
  rw [hold, List.nil_append, List.filter_eq_self]
  exact fun s hs => beq_iff_eq.mpr (hrows s hs)

theorem stageOrderItem_found (hvalid : w.db.Valid) :
    ((stageOrderItem rt fresh item).under Outcome.found).Returns (· = w) fun tx =>
      ∃ view, tx.view w.db = .ok view ∧ ItemAdded rt fresh item w.db view := by
  unfold stageOrderItem
  rw [under_bind, under_mapError]
  refine .bind ((begin_found _).mapError _) fun tx hbegin => ?_
  obtain ⟨hbegan, hview⟩ := hbegin
  rw [under_bind]
  refine .bind (checkOrderable_found hview) fun dish hdish => ?_
  rw [under_bind, under_mapError]
  refine .bind ((Tx.insert_found hview _ _).mapError _) fun tx' hinserted => ?_
  obtain ⟨-, view', hview', hinsert⟩ := hinserted
  rw [under_within]
  refine ((insertModifications_found hview').within _).mono fun tx'' hadded => ?_
  obtain ⟨hcount, hview''⟩ := hadded
  unfold Db.insertOrderItem at hinsert
  split_ifs at hinsert with _ hfree _
  cases hinsert
  have hnone : w.db.orderItem fresh.id = none := Option.not_isSome_iff_eq_none.mp hfree
  -- no row refers to an item that is not there
  have hold : w.db.modificationsOf fresh.id = [] := by
    refine List.filter_eq_nil_iff.mpr fun m hm hsel => ?_
    obtain ⟨i, hi, hid⟩ := hvalid.refs.snapshotItem m hm m.orderItemID rfl
    have habsent := List.find?_eq_none.mp hnone i hi
    rw [hid] at habsent
    exact habsent hsel
  refine ⟨_, hview'', ⟨dish, hdish, ⟨item.row fresh.id dish tx.began, ?_, rfl, rfl, rfl⟩⟩, ?_⟩
  · show (w.db.orderItems ++ [_]).find? _ = _
    rw [List.find?_append]
    have hfind : w.db.orderItems.find? (fun i => i.id == fresh.id) = none := hnone
    rw [hfind]
    simp [NewOrderItem.row]
  · rw [modificationsOf_append (by exact hold) fun s hs => snapshotRows_orderItemID hs]
    exact snapshotted_snapshotRows w.db hvalid.keys.menuItemModifications hcount

/-- An update of a row changes what it says, and the audit columns. -/
theorem update_columns (actor : UUID) (now : Time) (f : OrderItemRow → OrderItemRow) (i : OrderItemRow) :
    i.update actor now f = { f i with
      updatedAt := (i.update actor now f).updatedAt, updatedBy := (i.update actor now f).updatedBy } := by
  unfold OrderItemRow.update
  split_ifs with h
  · rw [h]
  · rfl

/-- The row of an item after its quantity or its note was set -/
theorem orderItem_updated {db db' : Db} {i : OrderItemRow} {f : OrderItemRow → OrderItemRow} {now : Time}
    (hf : ∀ j, (f j).id = j.id) (hi : db.orderItem id = some i)
    (h : Db.updateOrderItem id actor f now db = .ok db') :
    db'.orderItem id = some (i.update actor now f) ∧ ∃ rows, db' = db.setOrderItems rows := by
  unfold Db.updateOrderItem at h
  rw [hi] at h
  simp only at h
  split_ifs at h
  cases h
  refine ⟨Tables.find?_map_same (f := OrderItemRow.update actor now f) (fun j hj => ?_) hi, _, rfl⟩
  rw [update_columns]
  exact (hf j).trans hj

/-- The row before the modifications are set -/
structure RowEdited (id : UUID) (old : OrderItemRow) (quantity : Option Int64) (menu view : Db) : Prop where
  row : ∃ row, view.orderItem id = some row ∧ row.itemName = old.itemName ∧
    row.unitPriceCents = old.unitPriceCents ∧ row.quantity = quantity.getD old.quantity
  rest : ∃ rows, view = menu.setOrderItems rows

/-- One of the two updates, when its field is given -/
theorem whenSet_found {γ : Type} {tx : PgTx} {field : Option γ} {l : UpdateOrderItemStmt}
    {set : γ → OrderItemRow → OrderItemRow} {old : OrderItemRow} {q r : Option Int64} {view : Db}
    (hid : ∀ v j, (set v j).id = j.id) (hkeeps : ∀ v j, (set v j).itemName = j.itemName ∧
      (set v j).unitPriceCents = j.unitPriceCents)
    (hquantity : ∀ v ∈ field, ∀ j, j.quantity = q.getD old.quantity →
      (set v j).quantity = r.getD old.quantity)
    (hnone : field = none → r = q) (hview : tx.view w.db = .ok view)
    (hedited : RowEdited id old q w.db view) :
    ((whenSet tx field fun v => (tx.exec l fun _ =>
      Db.updateOrderItem id actor (set v) tx.began).mapError otherError).under Outcome.found).Returns
      (· = w) fun tx' => ∃ view', tx'.view w.db = .ok view' ∧ RowEdited id old r w.db view' := by
  cases hfield : field with
  | none =>
    rw [hnone hfield]
    exact returns_done.mpr ⟨view, hview, hedited⟩
  | some v =>
    show ((Prog.mapError otherError _).under _).Returns _ _
    rw [under_mapError]
    refine ((Tx.exec_found hview _).mono fun tx' hchanged => ?_).mapError _
    obtain ⟨-, view', hview', hupdate⟩ := hchanged
    obtain ⟨⟨row, hrow, hname, hprice, hq⟩, rows, hrest⟩ := hedited
    obtain ⟨hrow', rows', hrest'⟩ := orderItem_updated (hid v) hrow hupdate
    refine ⟨view', hview', ⟨_, hrow', ?_, ?_, ?_⟩, rows', ?_⟩
    · rw [update_columns]
      exact (hkeeps v row).1.trans hname
    · rw [update_columns]
      exact (hkeeps v row).2.trans hprice
    · rw [update_columns]
      exact hquantity v (hfield ▸ rfl) row hq
    · rw [hrest', hrest]
      rfl

theorem stageOrderItemUpdate_found (hvalid : w.db.Valid) (hids : change.modificationIDs = some ids) :
    ((stageOrderItemUpdate fresh id change actor).under Outcome.found).Returns (· = w) fun tx =>
      ∃ view, tx.view w.db = .ok view ∧ ItemChanged id change ids w.db view := by
  unfold stageOrderItemUpdate
  rw [under_bind, under_mapError]
  refine .bind ((begin_found _).mapError _) fun tx hbegin => ?_
  rw [under_bind, under_mapError]
  refine .bind ((Tx.queryRow_found hbegin.2 _ _).mapError _) fun menuItemID hfound => ?_
  obtain ⟨old, hold, rfl⟩ := Option.map_eq_some_iff.mp hfound
  rw [under_bind]
  refine .bind (whenSet_found (q := none) (r := change.quantity) (fun _ _ => rfl) (fun _ _ => ⟨rfl, rfl⟩)
    (fun v hv j _ => ?_) (fun h => h) hbegin.2 ⟨⟨old, hold, rfl, rfl, rfl⟩, _, rfl⟩) fun tx hset => ?_
  · rw [Option.mem_def.mp hv]
    rfl
  obtain ⟨view, hview, hedited⟩ := hset
  rw [under_bind]
  refine .bind (whenSet_found (q := change.quantity) (r := change.quantity) (fun _ _ => rfl)
    (fun _ _ => ⟨rfl, rfl⟩) (fun _ _ _ hq => hq) (fun _ => rfl) hview hedited) fun tx hset => ?_
  obtain ⟨view, hview, ⟨row, hrow, hname, hprice, hquantity⟩, rows, hrest⟩ := hset
  rw [hids]
  show ((_ >>= _ : DbProgram UpdateOrderItemStmt PgTx).under _).Returns _ _
  rw [under_bind, under_mapError]
  refine .bind ((Tx.exec_found hview _).mapError _) fun tx' hcleared => ?_
  obtain ⟨-, view', hview', hclear⟩ := hcleared
  rw [under_within]
  refine ((insertModifications_found hview').within _).mono fun tx'' hadded => ?_
  obtain ⟨hcount, hview''⟩ := hadded
  have hcleared : view' = view.setOrderItemModifications (view.orderItemModifications.filter fun m =>
      !(m.orderItemID == id && ((view.modificationsOf id).map OrderItemModificationRow.id).contains m.id)) :=
    (Except.ok.inj hclear).symm
  -- every snapshot that was there has gone
  have hnone : view'.modificationsOf id = [] := by
    rw [hcleared]
    refine List.filter_eq_nil_iff.mpr fun m hm hsel => ?_
    obtain ⟨hmem, hkept⟩ := List.mem_filter.mp hm
    have hown : m.id ∈ (view.modificationsOf id).map OrderItemModificationRow.id :=
      List.mem_map_of_mem (List.mem_filter.mpr ⟨hmem, hsel⟩)
    simp [beq_iff_eq.mp hsel, hown] at hkept
  have hmenu : view'.menuItemModifications = w.db.menuItemModifications := by
    rw [hcleared, hrest]
    rfl
  have hselected : view'.selectedModifications ids old.menuItemID =
      w.db.selectedModifications ids old.menuItemID := by
    unfold Db.selectedModifications
    rw [hmenu]
  rw [hselected] at hcount hview''
  refine ⟨_, hview'', old, row, hold, ?_, hname, hprice, hquantity, ?_⟩
  · rw [hcleared]
    exact hrow
  · rw [modificationsOf_append hnone fun s hs => snapshotRows_orderItemID hs]
    exact snapshotted_snapshotRows w.db hvalid.keys.menuItemModifications hcount

end Transactions

/-! ## The read-back -/

section ReadBack

variable {rt : Runtime} {id : UUID} {w : World Db Time}

theorem orderItemByID_shown : (orderItemByID rt id).Returns (· = w) fun r =>
    ∃ row, w.db.orderItem id = some row ∧ ItemShown w.db row r := by
  refine .bind (A := fun item => w.db.orderItemByID id = some item)
    (.mapError (queryRow_returns fun w' item hw hitem => hw ▸ hitem) _) fun item hitem => ?_
  refine .bind (A := (· = w.db.loadModifications rt [item])) ?_ fun items hitems => returns_done.mpr ?_
  · unfold loadModifications
    exact .mapError (query_returns fun w' hw => by rw [hw]) _
  · obtain ⟨row, hrow, hscan⟩ := Option.bind_eq_some_iff.mp hitem
    obtain ⟨u, -, hscan⟩ := Option.bind_eq_some_iff.mp hscan
    cases hscan
    have hid : row.id = id := Db.orderItem_id _ hrow
    rw [hitems]
    have hperm := (sliceStable_perm (fun a b => rt.sortsBefore a.name b.name)
      (w.db.modificationsOf row.id)).map Db.scanModification
    refine ⟨row, hrow, rfl, rfl, rfl, hperm, ?_⟩
    rw [lineTotalCents_sum]
    have hsum := (hperm.map OrderItemModification.priceDeltaCents).sum_eq
    have hdeltas : ((w.db.modificationsOf row.id).map Db.scanModification).map
        OrderItemModification.priceDeltaCents =
          (w.db.modificationsOf row.id).map OrderItemModificationRow.priceDeltaCents := by
      rw [List.map_map]
      rfl
    rw [hdeltas] at hsum
    exact congrArg (fun deltas => row.quantity * (row.unitPriceCents + deltas)) hsum

/-- What a read-back may fail with -/
theorem readBack_throws : (orderItemByID rt id).Throws fun e => e = .notFound ∨ e = .failure := by
  refine .bind (.mapError _ fun x => ?_) fun item => .bind ?_ fun items => .done _
  · cases x with
    | noRows => exact .inl rfl
    | rejected | failed => exact .inr rfl
  · unfold loadModifications
    exact .mapError _ fun _ => .inr rfl

end ReadBack

/-! ## The calls -/

/-- What a request about an item is refused with -/
def refusals : List DbError := [.wrongRestaurant, .itemUnavailable, .itemNotServedThen, .modificationWrongItem]

/-- `AddOrderItem` up to and with its commit -/
def addOrderItemTx (rt : Runtime) (fresh : FreshItem) (item : NewOrderItem) :
    DbProgram AddOrderItemStmt Unit := do
  let tx ← stageOrderItem rt fresh item
  (tx.commit .commit).mapError otherError

/-- `UpdateOrderItem` up to and with its commit -/
def updateOrderItemTx (fresh : FreshItem) (id : UUID) (change : OrderItemUpdate) (actor : UUID) :
    DbProgram UpdateOrderItemStmt Unit := do
  let tx ← stageOrderItemUpdate fresh id change actor
  (tx.commit .commit).mapError otherError

section Calls

variable {rt : Runtime} {fresh : FreshItem}

theorem addOrderItem_eq (item : NewOrderItem) : addOrderItem rt fresh item =
    addOrderItemTx rt fresh item >>= fun _ => (orderItemByID rt fresh.id).within .readBack :=
  (bind_assoc _ _ _).symm

theorem updateOrderItem_eq (id : UUID) (change : OrderItemUpdate) (actor : UUID) :
    updateOrderItem rt fresh id change actor =
      updateOrderItemTx fresh id change actor >>= fun _ => (orderItemByID rt id).within .readBack :=
  (bind_assoc _ _ _).symm

theorem readBack_readOnly {ℓ : Type} (f : ItemsStmt → ℓ) (id : UUID) :
    ((orderItemByID rt id).within f).ReadOnly :=
  Steps.within (P := fun _ s s' => s' = s) (orderItemByID_reads rt id).readOnly

/-- A read-back that went through shows the item. -/
theorem readBack_shown {ℓ : Type} {f : ItemsStmt → ℓ} {ω : ℓ → Outcome} {id : UUID} {w : World Db Time}
    {r : OrderItem}
    (hrun : ((((orderItemByID rt id).within f).under Outcome.found).run ω w).1 = .ok r) :
    ∃ row, w.db.orderItem id = some row ∧ ItemShown w.db row r := by
  have hreads : (((orderItemByID rt id).within f).under Outcome.found).ReadOnly :=
    Steps.under (readBack_readOnly f id) _
  exact ((orderItemByID_shown.within f).under _).run hreads rfl hrun

/-- **An item is added and changed with faithful snapshots of the menu**: on success it has one for each
modification that was asked for, and its line total is that of its price and the deltas; refused, or when a
statement up to the commit fails, nothing has changed. -/
theorem orderItems_snapshot (rt : Runtime) (fresh : FreshItem) (w : World Db Time) (hvalid : w.db.Valid) :
    (∀ (item : NewOrderItem) (ω : AddOrderItemStmt → Outcome) r w',
      ((addOrderItem rt fresh item).under Outcome.found).run ω w = (.ok r, w') →
        ItemAdded rt fresh item w.db w'.db ∧
          ∃ row, w'.db.orderItem fresh.id = some row ∧ ItemShown w'.db row r) ∧
    (∀ id (change : OrderItemUpdate) actor ids (ω : UpdateOrderItemStmt → Outcome) r w',
      change.modificationIDs = some ids →
      ((updateOrderItem rt fresh id change actor).under Outcome.found).run ω w = (.ok r, w') →
        ItemChanged id change ids w.db w'.db ∧
          ∃ row, w'.db.orderItem id = some row ∧ ItemShown w'.db row r) ∧
    (∀ (item : NewOrderItem) (ω : AddOrderItemStmt → Outcome) e w',
      (e ∈ refusals → ((addOrderItem rt fresh item).under Outcome.found).run ω w = (.error e, w') → w' = w) ∧
      (((addOrderItemTx rt fresh item).under Outcome.found).run ω w = (.error e, w') →
        w' = w ∧ ((addOrderItem rt fresh item).under Outcome.found).run ω w = (.error e, w))) ∧
    ∀ id (change : OrderItemUpdate) actor (ω : UpdateOrderItemStmt → Outcome) e w',
      (e ∈ refusals →
        ((updateOrderItem rt fresh id change actor).under Outcome.found).run ω w = (.error e, w') → w' = w) ∧
      (((updateOrderItemTx fresh id change actor).under Outcome.found).run ω w = (.error e, w') →
        w' = w ∧ ((updateOrderItem rt fresh id change actor).under Outcome.found).run ω w = (.error e, w)) := by
  have hadds : ∀ item, (stageOrderItem rt fresh item).ReadOnly :=
    fun item => (stageOrderItem_reads rt fresh item).readOnly
  have hchanges : ∀ id change actor, (stageOrderItemUpdate fresh id change actor).ReadOnly :=
    fun id change actor => (stageOrderItemUpdate_reads fresh id change actor).readOnly
  have hrefusals : ∀ e ∈ refusals, ¬ (e = DbError.notFound ∨ e = .failure) := by decide
  refine ⟨fun item ω r w' hrun => ?_, fun id change actor ids ω r w' hids hrun => ?_,
    fun item ω e w' => ⟨fun he hrun => ?_, fun hrun => ?_⟩,
    fun id change actor ω e w' => ⟨fun he hrun => ?_, fun hrun => ?_⟩⟩
  · rw [addOrderItem_eq] at hrun
    obtain ⟨view, hadded, rfl, hread⟩ := run_transaction_then (hadds item) (stageOrderItem_found hvalid)
      (readBack_readOnly _ _) hrun
    exact ⟨hadded, readBack_shown hread⟩
  · rw [updateOrderItem_eq] at hrun
    obtain ⟨view, hchanged, rfl, hread⟩ := run_transaction_then (hchanges id change actor)
      (stageOrderItemUpdate_found hvalid hids) (readBack_readOnly _ _) hrun
    exact ⟨hchanged, readBack_shown hread⟩
  · rw [addOrderItem_eq] at hrun
    exact refused_transaction_then (hadds item) (readBack_throws.within _) (hrefusals e he) hrun
  · rw [addOrderItem_eq]
    exact failed_transaction_then (hadds item) hrun
  · rw [updateOrderItem_eq] at hrun
    exact refused_transaction_then (hchanges id change actor) (readBack_throws.within _) (hrefusals e he) hrun
  · rw [updateOrderItem_eq]
    exact failed_transaction_then (hchanges id change actor) hrun

/-- **However a change of an item ends, it has changed nothing, or the item is as it was to be.** -/
theorem updateOrderItem_committed {w w' : World Db Time} (hvalid : w.db.Valid) {id actor : UUID}
    {change : OrderItemUpdate} {ids : List UUID} (hids : change.modificationIDs = some ids)
    {ω : UpdateOrderItemStmt → Outcome} {r : Except DbError OrderItem}
    (hrun : ((updateOrderItem rt fresh id change actor).under Outcome.found).run ω w = (r, w')) :
    (w' = w ∧ ∀ i, r ≠ .ok i) ∨ ItemChanged id change ids w.db w'.db := by
  have hstage : (stageOrderItemUpdate fresh id change actor).ReadOnly :=
    (stageOrderItemUpdate_reads fresh id change actor).readOnly
  rw [updateOrderItem_eq, under_bind] at hrun
  obtain ⟨x, hfailed, rfl⟩ | ⟨u, w₁, hcommitted, hread⟩ := run_bind_cases hrun
  · have hsame := quiet_transaction (fun w => w) hstage Outcome.found x (congrArg Prod.fst hfailed)
    exact .inl ⟨(congrArg Prod.snd hfailed).symm.trans hsame, fun i hi => by cases hi⟩
  · obtain ⟨view, hchanged, rfl⟩ := run_transaction hstage (stageOrderItemUpdate_found hvalid hids) hcommitted
    have hback : ((orderItemByID rt id).within UpdateOrderItemStmt.readBack).ReadOnly := readBack_readOnly _ id
    have hstate := run_readOnly (Steps.under (P := fun _ s s' => s' = s) hback Outcome.found) ω { w with db := view }
    rw [hread] at hstate
    have hafter : w' = { w with db := view } := hstate
    rw [hafter]
    exact .inr hchanged

end Calls

/-! ## A kebab with cheese -/

/-- The kebab of `lunch` with its modification, ordered twice -/
theorem orderItems_snapshot_kebab : ∃ r w',
    ((addOrderItem Runtime.ascii ⟨⟨100⟩, fun k => ⟨101 + k⟩⟩ ⟨⟨6⟩, ⟨1⟩, ⟨4⟩, 2, "", [⟨5⟩]⟩).under
      Outcome.found).run (fun _ => .ok) ⟨lunch, 5000⟩ = (.ok r, w') ∧
    ItemAdded Runtime.ascii ⟨⟨100⟩, fun k => ⟨101 + k⟩⟩ ⟨⟨6⟩, ⟨1⟩, ⟨4⟩, 2, "", [⟨5⟩]⟩ lunch w'.db ∧
    ∃ row, w'.db.orderItem ⟨100⟩ = some row ∧ ItemShown w'.db row r := by
  have hok : (((addOrderItem Runtime.ascii ⟨⟨100⟩, fun k => ⟨101 + k⟩⟩ ⟨⟨6⟩, ⟨1⟩, ⟨4⟩, 2, "", [⟨5⟩]⟩).under
      Outcome.found).run (fun _ => .ok) ⟨lunch, 5000⟩).1.isOk = true := by decide +kernel
  obtain ⟨r, w', hrun⟩ := eq_ok_of_isOk hok
  exact ⟨r, w', hrun, (orderItems_snapshot Runtime.ascii ⟨⟨100⟩, fun k => ⟨101 + k⟩⟩ ⟨lunch, 5000⟩
    lunch_valid).1 _ (fun _ => .ok) r w' hrun⟩

end Doenerstag
