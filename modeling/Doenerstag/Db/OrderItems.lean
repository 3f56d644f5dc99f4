import Doenerstag.Db.Delete
import Doenerstag.Db.Queries
import Doenerstag.Lib.ReadCommitted
import Mathlib.Tactic.Simps.Basic

/-!
# Order items (`internal/db/orderitems.go`)

`AddOrderItem`, `UpdateOrderItem` and `DeleteOrderItem` as programs of statements, with the reads
they end in. Each statement has a label; a sequence of statements that several functions share has
labels of its own.

Identifiers are generated by the program, not by the database: `FreshItem` is what one call of
`AddOrderItem` or `UpdateOrderItem` gets from `uuid.NewV7`.
-/

namespace Doenerstag

open ReadCommitted Prog

/-- A function of the db package. -/
abbrev DbProgram (ℓ : Type) : Type → Type := Program ℓ Db Time DbError

/-- A transaction on the pool. -/
abbrev PgTx := Tx PgError Db Time

/-- The `scan` functions: a row that is not there is `ErrNotFound`. -/
def scanError (e : StmtError PgError) : DbError :=
  match e with
  | .noRows => .notFound
  | _ => .failure

/-- An error a function passes on as it is. -/
def otherError (_ : StmtError PgError) : DbError := .failure

/-! ## What the statements write -/

/-- `nullif(…, '')` -/
def nullIfEmpty (value : String) : Option String := if value = "" then none else some value

@[simps] def Db.setOrderItems (db : Db) (rows : List OrderItemRow) : Db :=
  { db with orderItems := rows }

@[simps] def Db.setOrderItemModifications (db : Db) (rows : List OrderItemModificationRow) : Db :=
  { db with orderItemModifications := rows }

namespace Db

/-- `INSERT INTO order_item` -/
def insertOrderItem (row : OrderItemRow) (db : Db) : Except PgError Db :=
  if ¬ row.Check then .error .checkViolation
  else if (db.orderItem row.id).isSome then .error .uniqueViolation
  else if (db.foodOrder row.orderID).isNone || (db.userByID row.userID).isNone ||
      (db.menuItem row.menuItemID).isNone then
    .error .foreignKeyViolation
  else .ok (db.setOrderItems (db.orderItems ++ [row]))

/-- `INSERT INTO order_item_modification` -/
def insertOrderItemModification (row : OrderItemModificationRow) (db : Db) : Except PgError Db :=
  let known (id : UUID) := db.menuItemModifications.any fun m => m.id == id
  if row.name.length < 1 || 200 < row.name.length then .error .checkViolation
  else if db.orderItemModifications.any fun m => m.id == row.id then .error .uniqueViolation
  else if (db.orderItem row.orderItemID).isNone || !row.modificationID.all known then
    .error .foreignKeyViolation
  else .ok (db.setOrderItemModifications (db.orderItemModifications ++ [row]))

end Db

/-- An update of a row, with the trigger `set_updated_at`: the row is stamped when more than its
audit columns changed. -/
def OrderItemRow.update (actor : UUID) (now : Time) (f : OrderItemRow → OrderItemRow)
    (i : OrderItemRow) : OrderItemRow :=
  if f i = i then { i with updatedBy := some actor }
  else { f i with updatedAt := pgTime now, updatedBy := some actor }

namespace Db

/-- `UPDATE order_item SET … WHERE id = …` -/
def updateOrderItem (id actor : UUID) (f : OrderItemRow → OrderItemRow) (now : Time) (db : Db) :
    Except PgError Db :=
  match db.orderItem id with
  | none => .ok db
  | some i =>
    if ¬ (f i).Check then .error .checkViolation
    else if (db.userByID actor).isNone then .error .foreignKeyViolation
    else .ok (db.setOrderItems
      (db.orderItems.map fun j => if j.id == id then j.update actor now f else j))

/-- `DELETE FROM order_item_modification WHERE order_item_id = …`, of the rows it saw. -/
def deleteOrderItemModifications (itemID : UUID) (seen : List UUID) (db : Db) :
    Except PgError Db :=
  .ok (db.setOrderItemModifications
    (db.orderItemModifications.filter fun m => !(m.orderItemID == itemID && seen.contains m.id)))

/-- `DELETE FROM order_item WHERE id = …`, with the cascade. -/
def deleteOrderItem (id : UUID) (db : Db) : Except PgError (Db × Nat) :=
  .ok (db.deleteOrderItems (fun i => i.id == id), db.orderItems.countP fun i => i.id == id)

end Db

/-! ## Reading items -/

/-- Without items there is no statement. -/
def loadModifications {ℓ : Type} (rt : Runtime) (l : ℓ) (items : List OrderItem) :
    DbProgram ℓ (List OrderItem) :=
  if items.isEmpty then
    pure items
  else
    (query l fun db => db.loadModifications rt items).mapError otherError

/-- The statements of `OrderItemByID`, and of `ListOrderItems`. -/
inductive ItemsStmt where
  | items
  | modifications
  deriving DecidableEq, Repr

def orderItemByID (rt : Runtime) (id : UUID) : DbProgram ItemsStmt OrderItem := do
  let item ← (queryRow .items fun db => db.orderItemByID id).mapError scanError
  let items ← loadModifications rt .modifications [item]
  pure (items.headD item)

def listOrderItems (rt : Runtime) (orderID : UUID) : DbProgram ItemsStmt (List OrderItem) := do
  let items ← (query .items fun db => db.orderItemRows orderID).mapError otherError
  loadModifications rt .modifications items

/-! ## The snapshot of the modifications -/

/-- What one call gets from `uuid.NewV7`: the item, and its snapshots one after the other. -/
structure FreshItem where
  id : UUID
  snapshot : Nat → UUID

/-- The statements of `insertModifications`: the read, and one insert for each row found. -/
inductive SnapshotStmt where
  | read
  | insert (k : Nat)
  deriving DecidableEq, Repr

/-- The loop of `insertModifications`, from the `k`-th row found. -/
def insertSnapshots (fresh : FreshItem) (orderItemID : UUID) (tx : PgTx) (k : Nat) :
    List MenuItemModificationRow → DbProgram SnapshotStmt PgTx
  | [] => pure tx
  | s :: rest => do
    let tx ← (tx.insert (.insert k) (Db.insertOrderItemModification
      { id := fresh.snapshot k
        orderItemID := orderItemID
        modificationID := some s.id
        name := s.name
        priceDeltaCents := s.priceDeltaCents })).mapError otherError
    insertSnapshots fresh orderItemID tx (k + 1) rest

/-- Every selected modification has to be one of the dish's. -/
def insertModifications (fresh : FreshItem) (tx : PgTx) (orderItemID menuItemID : UUID)
    (modificationIDs : List UUID) : DbProgram SnapshotStmt PgTx :=
  if modificationIDs.isEmpty then
    pure tx
  else do
    let found ← (tx.query .read fun db =>
      db.selectedModifications modificationIDs menuItemID).mapError otherError
    Prog.require (found.length == modificationIDs.length) .modificationWrongItem
    insertSnapshots fresh orderItemID tx 0 found

/-! ## Adding an item -/

structure NewOrderItem where
  orderID : UUID
  userID : UUID
  menuItemID : UUID
  quantity : Int64
  note : String
  modificationIDs : List UUID
  deriving DecidableEq, Repr

inductive AddOrderItemStmt where
  | begin
  | menuItem
  | itemFilters
  | categoryFilters
  | insert
  | modifications (s : SnapshotStmt)
  | commit
  | readBack (s : ItemsStmt)
  deriving DecidableEq, Repr

/-- A dish that is not on the menu of the order's restaurant is `ErrWrongRestaurant`. -/
def orderableItemError (e : StmtError PgError) : DbError :=
  match e with
  | .noRows => .wrongRestaurant
  | _ => .failure

/-- A dish without a category has no filters from one. -/
def categoryFilters (rt : Runtime) (tx : PgTx) (categoryID : Option UUID) :
    DbProgram AddOrderItemStmt (List AvailabilityFilter) :=
  match categoryID with
  | some id => (tx.query .categoryFilters fun db => db.filtersForCategory rt id).mapError otherError
  | none => pure []

/-- `itemServedAt`: the filters of the dish and of its category, asked about one moment. -/
def itemServedAt (rt : Runtime) (tx : PgTx) (menuItemID : UUID) (categoryID : Option UUID)
    (moment : Time) : DbProgram AddOrderItemStmt Bool := do
  let own ← (tx.query .itemFilters fun db =>
    db.filtersForMenuItem rt menuItemID).mapError otherError
  let category ← categoryFilters rt tx categoryID
  pure (itemAvailableAt rt category own moment)

/-- What `AddOrderItem` checks before it writes: the dish is the restaurant's, it has not sold out,
and the kitchen makes it at the order's time. -/
def checkOrderable (rt : Runtime) (tx : PgTx) (item : NewOrderItem) :
    DbProgram AddOrderItemStmt OrderableItem := do
  let dish ← (tx.queryRow .menuItem fun db =>
    db.orderableItem item.orderID item.menuItemID).mapError orderableItemError
  Prog.require dish.available .itemUnavailable
  let servedThen ← itemServedAt rt tx item.menuItemID dish.categoryID dish.fulfilment
  Prog.require servedThen .itemNotServedThen
  pure dish

/-- The row of a new item, with the name and the price of the dish. -/
def NewOrderItem.row (item : NewOrderItem) (id : UUID) (dish : OrderableItem) (now : Time) :
    OrderItemRow :=
  { id := id
    orderID := item.orderID
    userID := item.userID
    menuItemID := item.menuItemID
    quantity := item.quantity
    itemName := dish.name
    unitPriceCents := dish.price
    note := if item.note = "" then none else some item.note
    paid := false
    createdAt := pgTime now
    updatedAt := pgTime now
    updatedBy := some item.userID }

/-- `AddOrderItem` up to the commit: the transaction with everything it has written. -/
def stageOrderItem (rt : Runtime) (fresh : FreshItem) (item : NewOrderItem) :
    DbProgram AddOrderItemStmt PgTx := do
  let tx ← (begin .begin).mapError otherError
  let dish ← checkOrderable rt tx item
  let tx ← (tx.insert .insert (Db.insertOrderItem (item.row fresh.id dish tx.began))).mapError
    otherError
  (insertModifications fresh tx fresh.id item.menuItemID item.modificationIDs).within
    .modifications

def addOrderItem (rt : Runtime) (fresh : FreshItem) (item : NewOrderItem) :
    DbProgram AddOrderItemStmt OrderItem := do
  let tx ← stageOrderItem rt fresh item
  (tx.commit .commit).mapError otherError
  (orderItemByID rt fresh.id).within .readBack

/-! ## Changing an item -/

/-- A field that is absent stays as it is; the modifications are replaced as a whole. -/
structure OrderItemUpdate where
  quantity : Option Int64
  note : Option String
  modificationIDs : Option (List UUID)
  deriving DecidableEq, Repr

inductive UpdateOrderItemStmt where
  | begin
  | menuItem
  | quantity
  | note
  | clear
  | modifications (s : SnapshotStmt)
  | commit
  | readBack (s : ItemsStmt)
  deriving DecidableEq, Repr

def setQuantity (quantity : Int64) (i : OrderItemRow) : OrderItemRow :=
  { i with quantity := quantity }

def setNote (note : String) (i : OrderItemRow) : OrderItemRow :=
  { i with note := if note = "" then none else some note }

/-- A statement of `UpdateOrderItem` that is left out when its field is. -/
def whenSet {ℓ γ : Type} (tx : PgTx) (field : Option γ) (f : γ → DbProgram ℓ PgTx) :
    DbProgram ℓ PgTx :=
  match field with
  | some v => f v
  | none => pure tx

/-- `UpdateOrderItem` up to the commit. -/
def stageOrderItemUpdate (fresh : FreshItem) (id : UUID) (change : OrderItemUpdate) (actor : UUID) :
    DbProgram UpdateOrderItemStmt PgTx := do
  let tx ← (begin .begin).mapError otherError
  let menuItemID ← (tx.queryRow .menuItem fun db =>
    (db.orderItem id).map OrderItemRow.menuItemID).mapError scanError
  let tx ← whenSet tx change.quantity fun q =>
    (tx.exec .quantity fun _ => Db.updateOrderItem id actor (setQuantity q) tx.began).mapError
      otherError
  let tx ← whenSet tx change.note fun note =>
    (tx.exec .note fun _ => Db.updateOrderItem id actor (setNote note) tx.began).mapError otherError
  whenSet tx change.modificationIDs fun ids => do
    let tx ← (tx.exec .clear fun view => Db.deleteOrderItemModifications id
      ((view.modificationsOf id).map OrderItemModificationRow.id)).mapError otherError
    (insertModifications fresh tx id menuItemID ids).within .modifications

def updateOrderItem (rt : Runtime) (fresh : FreshItem) (id : UUID) (change : OrderItemUpdate)
    (actor : UUID) : DbProgram UpdateOrderItemStmt OrderItem := do
  let tx ← stageOrderItemUpdate fresh id change actor
  (tx.commit .commit).mapError otherError
  (orderItemByID rt id).within .readBack

/-- `DeleteOrderItem`, one statement on the pool. -/
def deleteOrderItem {ℓ : Type} (l : ℓ) (id : UUID) : DbProgram ℓ Unit := do
  let removed ← (exec l fun _ => Db.deleteOrderItem id).mapError otherError
  Prog.require (removed != 0) .notFound

/-! ## Everything before the commit only reads what is committed -/

/-- The statement reads when the dish is served. -/
def AddOrderItemStmt.Serving : AddOrderItemStmt → Prop
  | .itemFilters => True
  | .categoryFilters => True
  | _ => False

/-- The dish has been checked, and nothing is committed yet. -/
def AddOrderItemStmt.Checked : AddOrderItemStmt → Prop
  | .itemFilters => True
  | .categoryFilters => True
  | .insert => True
  | .modifications _ => True
  | _ => False

/-- The statement is one of those before the commit. -/
def AddOrderItemStmt.Staging : AddOrderItemStmt → Prop
  | .commit => False
  | .readBack _ => False
  | _ => True

/-- The statement is one of those before the commit. -/
def UpdateOrderItemStmt.Staging : UpdateOrderItemStmt → Prop
  | .commit => False
  | .readBack _ => False
  | _ => True

section Reads

variable {ℓ : Type}

theorem loadModifications_reads {L : ℓ → Prop} {l : ℓ} (rt : Runtime) (items : List OrderItem)
    (hl : L l) : (loadModifications rt l items).Reads L := by
  unfold loadModifications
  split_ifs
  · exact .done _
  · exact (query_reads hl).mapError _

theorem orderItemByID_reads (rt : Runtime) (id : UUID) :
    (orderItemByID rt id).Reads fun _ => True := by
  refine .bind ((queryRow_reads trivial).mapError _) fun item => ?_
  exact .bind (loadModifications_reads _ _ trivial) fun items => .done _

theorem listOrderItems_reads (rt : Runtime) (orderID : UUID) :
    (listOrderItems rt orderID).Reads fun _ => True :=
  .bind ((query_reads trivial).mapError _) fun _ => loadModifications_reads _ _ trivial

theorem insertSnapshots_reads (fresh : FreshItem) (orderItemID : UUID) (tx : PgTx) (k : Nat)
    (found : List MenuItemModificationRow) :
    (insertSnapshots fresh orderItemID tx k found).Reads fun _ => True := by
  induction found generalizing tx k with
  | nil => exact .done _
  | cons s rest ih => exact .bind ((tx.insert_reads trivial).mapError _) fun tx => ih tx (k + 1)

theorem insertModifications_reads (fresh : FreshItem) (tx : PgTx) (orderItemID menuItemID : UUID)
    (ids : List UUID) :
    (insertModifications fresh tx orderItemID menuItemID ids).Reads fun _ => True := by
  unfold insertModifications
  split_ifs
  · exact .done _
  · refine .bind ((tx.query_reads trivial).mapError _) fun found => ?_
    exact .bind (.require _ _) fun _ => insertSnapshots_reads _ _ _ _ _

theorem AddOrderItemStmt.Serving.checked {l : AddOrderItemStmt} (h : l.Serving) : l.Checked := by
  cases l <;> trivial

theorem AddOrderItemStmt.Checked.staging {l : AddOrderItemStmt} (h : l.Checked) : l.Staging := by
  cases l <;> trivial

theorem itemServedAt_reads (rt : Runtime) (tx : PgTx) (menuItemID : UUID)
    (categoryID : Option UUID) (moment : Time) :
    (itemServedAt rt tx menuItemID categoryID moment).Reads AddOrderItemStmt.Serving := by
  refine .bind ((tx.query_reads trivial).mapError _) fun own => .bind ?_ fun category => .done _
  cases categoryID with
  | none => exact .done _
  | some id => exact (tx.query_reads trivial).mapError _

theorem checkOrderable_reads (rt : Runtime) (tx : PgTx) (item : NewOrderItem) :
    (checkOrderable rt tx item).Reads AddOrderItemStmt.Staging := by
  refine .bind ((tx.queryRow_reads trivial).mapError _) fun dish => ?_
  refine .bind (.require _ _) fun _ => ?_
  refine .bind ((itemServedAt_reads rt tx _ _ _).mono fun _ hl => hl.checked.staging) fun served => ?_
  exact .bind (.require _ _) fun _ => .done _

theorem stageOrderItem_reads (rt : Runtime) (fresh : FreshItem) (item : NewOrderItem) :
    (stageOrderItem rt fresh item).Reads AddOrderItemStmt.Staging := by
  refine .bind ((begin_reads trivial).mapError _) fun tx => ?_
  refine .bind (checkOrderable_reads rt tx item) fun dish => ?_
  refine .bind ((tx.insert_reads trivial).mapError _) fun tx => ?_
  exact (insertModifications_reads _ _ _ _ _).within

theorem whenSet_reads {γ : Type} {L : ℓ → Prop} {tx : PgTx} {field : Option γ}
    {f : γ → DbProgram ℓ PgTx} (h : ∀ v, (f v).Reads L) : (whenSet tx field f).Reads L := by
  cases field with
  | none => exact .done _
  | some v => exact h v

theorem stageOrderItemUpdate_reads (fresh : FreshItem) (id : UUID) (change : OrderItemUpdate)
    (actor : UUID) :
    (stageOrderItemUpdate fresh id change actor).Reads UpdateOrderItemStmt.Staging := by
  refine .bind ((begin_reads trivial).mapError _) fun tx => ?_
  refine .bind ((tx.queryRow_reads trivial).mapError _) fun menuItemID => ?_
  refine .bind (whenSet_reads fun q => (tx.exec_reads trivial).mapError _) fun tx => ?_
  refine .bind (whenSet_reads fun note => (tx.exec_reads trivial).mapError _) fun tx => ?_
  refine whenSet_reads fun ids => .bind ((tx.exec_reads trivial).mapError _) fun tx => ?_
  exact (insertModifications_reads _ _ _ _ _).within

end Reads

/-! ## What is read -/

theorem loadModifications_returns {ℓ : Type} {rt : Runtime} {l : ℓ} {items : List OrderItem}
    {I : World Db Time → Prop} :
    (loadModifications rt l items).Returns I fun loaded =>
      loaded.map (fun i => (i.id, i.orderID)) = items.map fun i => (i.id, i.orderID) := by
  unfold loadModifications
  split_ifs
  · exact returns_done.mpr rfl
  · refine (read_returns fun e w loaded _ hloaded => ?_).mapError _
    rw [Outcome.rows_eq_ok hloaded]
    unfold Db.loadModifications
    rw [List.map_map]
    rfl

/-- An item that was found is a row of a state it was read in, and its account is there. -/
theorem orderItemByID_returns {I : World Db Time → Prop} (rt : Runtime) (id : UUID) :
    (orderItemByID rt id).Returns I fun item => ∃ w, I w ∧ ∃ i, w.db.orderItem id = some i ∧
      (w.db.userByID i.userID).isSome ∧ item.id = i.id ∧ item.orderID = i.orderID := by
  refine .bind (.mapError (queryRow_returns (A := fun item => ∃ w, I w ∧ ∃ i,
    w.db.orderItem id = some i ∧ (w.db.userByID i.userID).isSome ∧ item.id = i.id ∧
      item.orderID = i.orderID) fun w item hI hitem => ?_) _) fun item hitem => ?_
  · obtain ⟨i, hi, hscan⟩ := Option.bind_eq_some_iff.mp hitem
    unfold Db.scanOrderItem at hscan
    obtain ⟨u, hu, hscan⟩ := Option.bind_eq_some_iff.mp hscan
    cases hscan
    exact ⟨w, hI, i, hi, Option.isSome_iff_exists.mpr ⟨u, hu⟩, rfl, rfl⟩
  · -- loading the modifications changes neither identifier
    refine .bind loadModifications_returns fun loaded hloaded => returns_done.mpr ?_
    cases loaded with
    | nil => exact hitem
    | cons first rest =>
      simp only [List.map_cons, List.map_nil, List.cons.injEq, Prod.mk.injEq] at hloaded
      simpa [hloaded.1.1, hloaded.1.2] using hitem

/-! ## What a transaction has written -/

section Writes

variable {I : World Db Time → Prop} {P : (Db → Except PgError Db) → Prop}

theorem insertSnapshots_returns {fresh : FreshItem} {orderItemID : UUID}
    (hsnapshot : ∀ row : OrderItemModificationRow, row.orderItemID = orderItemID →
      P (Db.insertOrderItemModification row)) (found : List MenuItemModificationRow) {tx : PgTx}
    {k : Nat} (h : tx.Writes P) :
    (insertSnapshots fresh orderItemID tx k found).Returns I (Tx.Writes P) := by
  induction found generalizing tx k with
  | nil => exact Prog.returns_done.mpr h
  | cons s rest ih =>
    exact .bind ((Tx.insert_returns h (hsnapshot _ rfl)).mapError _) fun tx' h' => ih h'

theorem insertModifications_returns {fresh : FreshItem} {tx : PgTx} {orderItemID menuItemID : UUID}
    {ids : List UUID}
    (hsnapshot : ∀ row : OrderItemModificationRow, row.orderItemID = orderItemID →
      P (Db.insertOrderItemModification row)) (h : tx.Writes P) :
    (insertModifications fresh tx orderItemID menuItemID ids).Returns I (Tx.Writes P) := by
  unfold insertModifications
  split_ifs
  · exact Prog.returns_done.mpr h
  · refine .bind (Prog.Returns.trivially _) fun found _ => ?_
    exact .bind (Prog.Returns.trivially _) fun _ _ => insertSnapshots_returns hsnapshot found h

/-- The writes of a new item: its row, and the snapshots that refer to it. -/
theorem stageOrderItem_returns {rt : Runtime} {fresh : FreshItem} {item : NewOrderItem}
    (hitem : ∀ dish now, P (Db.insertOrderItem (item.row fresh.id dish now)))
    (hsnapshot : ∀ row : OrderItemModificationRow, row.orderItemID = fresh.id →
      P (Db.insertOrderItemModification row)) :
    (stageOrderItem rt fresh item).Returns I (Tx.Writes P) := by
  refine .bind ((begin_returns (P := P)).mapError _) fun tx htx => ?_
  refine .bind (Prog.Returns.trivially _) fun dish _ => ?_
  refine .bind ((Tx.insert_returns htx (hitem dish tx.began)).mapError _) fun tx' htx' => ?_
  exact (insertModifications_returns hsnapshot htx').within _

theorem whenSet_returns {ℓ γ : Type} {A : PgTx → Prop} {tx : PgTx} {field : Option γ}
    {f : γ → DbProgram ℓ PgTx} (htx : A tx) (hf : ∀ v, (f v).Returns I A) :
    (whenSet tx field f).Returns I A := by
  cases field with
  | none => exact Prog.returns_done.mpr htx
  | some v => exact hf v

/-- The writes of a changed item: its columns, and its snapshots anew. -/
theorem stageOrderItemUpdate_returns {fresh : FreshItem} {id : UUID} {change : OrderItemUpdate}
    {actor : UUID} (hquantity : ∀ q now, P (Db.updateOrderItem id actor (setQuantity q) now))
    (hnote : ∀ note now, P (Db.updateOrderItem id actor (setNote note) now))
    (hclear : ∀ seen, P (Db.deleteOrderItemModifications id seen))
    (hsnapshot : ∀ row : OrderItemModificationRow, row.orderItemID = id →
      P (Db.insertOrderItemModification row)) :
    (stageOrderItemUpdate fresh id change actor).Returns I (Tx.Writes P) := by
  refine .bind ((begin_returns (P := P)).mapError _) fun tx htx => ?_
  refine .bind (Prog.Returns.trivially _) fun menuItemID _ => ?_
  refine .bind (whenSet_returns htx fun q => ?_) fun tx htx => ?_
  · exact (Tx.exec_returns htx fun _ => hquantity q _).mapError _
  refine .bind (whenSet_returns htx fun note => ?_) fun tx htx => ?_
  · exact (Tx.exec_returns htx fun _ => hnote note _).mapError _
  refine whenSet_returns htx fun ids => ?_
  refine .bind ((Tx.exec_returns htx fun _ => hclear _).mapError _) fun tx htx => ?_
  exact (insertModifications_returns hsnapshot htx).within _

end Writes

/-! ## What is staged, in order -/

/-- The rows `insertModifications` writes for the modifications it found, from the `k`-th. -/
def snapshotRows (fresh : FreshItem) (itemID : UUID) (k : Nat) :
    List MenuItemModificationRow → List OrderItemModificationRow
  | [] => []
  | s :: rest =>
    { id := fresh.snapshot k, orderItemID := itemID, modificationID := some s.id, name := s.name
      priceDeltaCents := s.priceDeltaCents } :: snapshotRows fresh itemID (k + 1) rest

theorem snapshotRows_orderItemID {fresh : FreshItem} {itemID : UUID} {k : Nat}
    {found : List MenuItemModificationRow} {m : OrderItemModificationRow}
    (h : m ∈ snapshotRows fresh itemID k found) : m.orderItemID = itemID := by
  induction found generalizing k with
  | nil => cases h
  | cons s rest ih =>
    rcases List.mem_cons.mp h with rfl | h
    · rfl
    · exact ih h

theorem insertSnapshots_writes {I : World Db Time → Prop} (fresh : FreshItem) (itemID : UUID)
    (found : List MenuItemModificationRow) (tx : PgTx) (k : Nat) :
    (insertSnapshots fresh itemID tx k found).Returns I fun tx' =>
      tx'.writes = tx.writes ++
        (snapshotRows fresh itemID k found).map Db.insertOrderItemModification := by
  induction found generalizing tx k with
  | nil => exact returns_done.mpr (List.append_nil _).symm
  | cons s rest ih =>
    refine .bind ((Tx.insert_pushes tx).mapError _) fun tx' htx' => (ih tx' (k + 1)).mono ?_
    intro tx'' htx''
    rw [htx'', htx', Tx.push, List.append_assoc]
    rfl

/-- What the snapshots leave when they are committed. -/
theorem snapshots_view {rows : List OrderItemModificationRow} {db db' : Db}
    (h : (rows.map Db.insertOrderItemModification).foldlM (fun db u => u db) db = .ok db') :
    db' = db.setOrderItemModifications (db.orderItemModifications ++ rows) := by
  induction rows generalizing db with
  | nil =>
    cases h
    rw [List.append_nil]
    rfl
  | cons row rest ih =>
    obtain ⟨next, hu, hrest⟩ := writes_cons_eq_ok h
    rw [ih hrest]
    unfold Db.insertOrderItemModification at hu
    simp only at hu
    split_ifs at hu
    cases hu
    rw [Db.setOrderItemModifications_orderItemModifications, List.append_assoc]
    rfl

/-- What an item's modifications add to a transaction: their snapshots. -/
theorem insertModifications_writes {I : World Db Time → Prop} (fresh : FreshItem) (tx : PgTx)
    (itemID menuItemID : UUID) (ids : List UUID) :
    (insertModifications fresh tx itemID menuItemID ids).Returns I fun tx' =>
      ∃ found, tx'.writes = tx.writes ++
        (snapshotRows fresh itemID 0 found).map Db.insertOrderItemModification := by
  unfold insertModifications
  split_ifs
  · exact returns_done.mpr ⟨[], (List.append_nil _).symm⟩
  · refine .bind (.trivially _) fun found _ => .bind (.trivially _) fun _ _ => ?_
    exact (insertSnapshots_writes fresh itemID found tx 0).mono fun tx' h => ⟨found, h⟩

/-- What a new item's transaction writes: its row, then the snapshots. -/
theorem stageOrderItem_writes {I : World Db Time → Prop} (rt : Runtime) (fresh : FreshItem)
    (item : NewOrderItem) :
    (stageOrderItem rt fresh item).Returns I fun tx => ∃ dish now found,
      tx.writes = Db.insertOrderItem (item.row fresh.id dish now) ::
        (snapshotRows fresh fresh.id 0 found).map Db.insertOrderItemModification := by
  refine .bind (A := fun tx => tx.writes = []) (.mapError (read_returns fun e w tx _ htx => ?_) _)
    fun tx htx => ?_
  · rw [Outcome.rows_eq_ok htx]
  · refine .bind (.trivially _) fun dish _ => .bind ((Tx.insert_pushes tx).mapError _) ?_
    intro tx' htx'
    refine ((insertModifications_writes fresh tx' _ _ _).within _).mono ?_
    rintro tx'' ⟨found, hwrites⟩
    refine ⟨dish, tx.began, found, ?_⟩
    rw [hwrites, htx', Tx.push, htx]
    rfl

end Doenerstag
