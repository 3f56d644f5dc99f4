import Doenerstag.Db.CopyName
import Doenerstag.Db.MenuItemOrder

/-!
# Copying a menu (`internal/db/menucopy.go`)

`DuplicateMenuItem` and `DuplicateCategory`, each one transaction. `FreshCopy` and `FreshCategory` are what a
call gets from `uuid.NewV7`.
-/

namespace Doenerstag

open ReadCommitted Prog

/-! ## What is read -/

namespace Db

variable (db : Db) (rt : Runtime)

/-- `takenNames` of `menu_item`: those of the living items of a restaurant, in lower case -/
def takenItemNames (restaurantID : UUID) : Finset String :=
  ((db.menuItems.filter fun m => m.restaurantID == restaurantID && m.deletedAt.isNone).map fun m =>
    rt.lower m.name).toFinset

/-- `takenNames` of `menu_category` -/
def takenCategoryNames (restaurantID : UUID) : Finset String :=
  ((db.menuCategories.filter fun c => c.restaurantID == restaurantID && c.deletedAt.isNone).map fun c =>
    rt.lower c.name).toFinset

def livingItemsOf (categoryID : UUID) : List MenuItemRow :=
  db.menuItems.filter fun m => m.categoryID == some categoryID && m.deletedAt.isNone

/-- `categoryItems`: the living items of a category, in the order of the menu. Of a row the callers take the
id and the name. -/
def categoryItems (categoryID : UUID) : Except PgError (List MenuItemRow) :=
  sortMenu rt (db.livingItemsOf categoryID)

/-- `ListModifications` -/
def listModifications (menuItemID : UUID) : List MenuItemModificationRow :=
  sliceStable (fun a b => a.sortOrder < b.sortOrder ||
    (a.sortOrder == b.sortOrder && rt.sortsBefore (rt.lower a.name) (rt.lower b.name)))
    (db.livingModifications menuItemID)

end Db

/-! ## What is written -/

/-- The tables that link an item to something, in the order in which they are copied -/
inductive ItemLinks where
  | classified (c : Classification)
  | availability
  deriving DecidableEq, Repr

namespace ItemLinks

def all : List ItemLinks := [.classified .tag, .classified .allergen, .classified .additive, .availability]

def rows (t : ItemLinks) (db : Db) : List MenuItemLinkRow :=
  match t with
  | classified c => c.links db
  | availability => db.menuItemAvailability.map fun a => { menuItemID := a.menuItemID, targetID := a.filterID }

def append (t : ItemLinks) (db : Db) (new : List MenuItemLinkRow) : Db :=
  match t with
  | classified c => c.setLinks db (c.links db ++ new)
  | availability => { db with
      menuItemAvailability := db.menuItemAvailability ++ new.map fun l =>
        { menuItemID := l.menuItemID, filterID := l.targetID } }

def known (t : ItemLinks) (db : Db) (id : UUID) : Bool :=
  match t with
  | classified c => c.known db id
  | availability => db.availabilityFilters.any fun f => f.id == id

/-- What an item is linked to -/
def targets (t : ItemLinks) (itemID : UUID) (db : Db) : List UUID :=
  ((t.rows db).filter fun l => l.menuItemID == itemID).map MenuItemLinkRow.targetID

/-- The rows of an item that is linked to these -/
def rowsFor (copyID : UUID) (linked : List UUID) : List MenuItemLinkRow :=
  linked.map fun id => { menuItemID := copyID, targetID := id }

/-- `INSERT INTO … SELECT $2, … FROM … WHERE menu_item_id = $1`, of the links it saw -/
def insertCopies (t : ItemLinks) (copyID actor : UUID) (linked : List UUID) (db : Db) : Except PgError Db :=
  let new := rowsFor copyID linked
  if new.any (t.rows db).contains || !decide new.Nodup then .error .uniqueViolation
  else if !linked.all (fun id => (db.menuItem copyID).isSome && t.known db id && (db.userByID actor).isSome) then
    .error .foreignKeyViolation
  else .ok (t.append db new)

end ItemLinks

/-- `INSERT INTO menu_item … SELECT … FROM menu_item`: the row of a copy -/
def MenuItemRow.copy (m : MenuItemRow) (id : UUID) (categoryID : Option UUID) (name : String) (actor : UUID)
    (now : Time) : MenuItemRow :=
  { m with
    id, categoryID, name
    deletedAt := none
    createdAt := pgTime now
    updatedAt := pgTime now
    updatedBy := some actor }

/-- `INSERT INTO menu_item (…) SELECT … FROM menu_item WHERE id = $1`, of the row it saw -/
def Db.insertItemCopy (rt : Runtime) (copyID sourceID : UUID) (categoryID : Option UUID) (name : String)
    (actor : UUID) (now : Time) (view db : Db) : Except PgError Db :=
  match view.menuItem sourceID with
  | none => .ok db
  | some m => (Db.insertMenuItem rt (m.copy copyID categoryID name actor now) db).map Prod.fst

def MenuItemModificationRow.copy (m : MenuItemModificationRow) (id copyID : UUID) : MenuItemModificationRow :=
  { m with id, menuItemID := copyID, deletedAt := none }

@[simps] def Db.setMenuItemModifications (db : Db) (rows : List MenuItemModificationRow) : Db :=
  { db with menuItemModifications := rows }

@[simps] def Db.setMenuCategories (db : Db) (rows : List MenuCategoryRow) : Db :=
  { db with menuCategories := rows }

namespace Db

/-- `INSERT INTO menu_item_modification` -/
def insertModification (rt : Runtime) (row : MenuItemModificationRow) (actor : UUID) (db : Db) :
    Except PgError Db :=
  if row.name.length < 1 || 200 < row.name.length then .error .checkViolation
  else if (db.menuItemModifications.any fun m => m.id == row.id) ||
      (db.menuItemModifications.any fun m => m.menuItemID == row.menuItemID && m.deletedAt.isNone &&
        rt.lower m.name == rt.lower row.name) then
    .error .uniqueViolation
  else if (db.menuItem row.menuItemID).isNone || (db.userByID actor).isNone then .error .foreignKeyViolation
  else .ok (db.setMenuItemModifications (db.menuItemModifications ++ [row]))

/-- `INSERT INTO menu_category` -/
def insertCategory (rt : Runtime) (row : MenuCategoryRow) (actor : UUID) (db : Db) : Except PgError Db :=
  if row.name.length < 1 || 200 < row.name.length then .error .checkViolation
  else if (db.menuCategories.any fun c => c.id == row.id) ||
      (db.menuCategories.any fun c => c.restaurantID == row.restaurantID && c.deletedAt.isNone &&
        rt.lower c.name == rt.lower row.name) then
    .error .uniqueViolation
  else if (!db.restaurants.any fun r => r.id == row.restaurantID) || (db.userByID actor).isNone then
    .error .foreignKeyViolation
  else .ok (db.setMenuCategories (db.menuCategories ++ [row]))

/-- The filters of a category -/
def categoryFilterIDs (db : Db) (categoryID : UUID) : List UUID :=
  (db.menuCategoryAvailability.filter fun a => a.categoryID == categoryID).map
    MenuCategoryAvailabilityRow.filterID

/-- `INSERT INTO menu_category_availability … SELECT $2, …`, of the rows it saw -/
def copyCategoryAvailability (copyID actor : UUID) (filters : List UUID) (db : Db) : Except PgError Db :=
  let new : List MenuCategoryAvailabilityRow := filters.map fun id => { categoryID := copyID, filterID := id }
  if new.any db.menuCategoryAvailability.contains || !decide new.Nodup then .error .uniqueViolation
  else if !filters.all (fun id => (db.menuCategories.any fun c => c.id == copyID) &&
      (db.availabilityFilters.any fun f => f.id == id) && (db.userByID actor).isSome) then
    .error .foreignKeyViolation
  else .ok { db with menuCategoryAvailability := db.menuCategoryAvailability ++ new }

end Db

/-! ## Copying an item -/

/-- The id of a copy, and those of its modifications -/
structure FreshCopy where
  id : UUID
  modification : Nat → UUID

inductive CopyItemStmt where
  | item
  | links (t : ItemLinks)
  | modifications
  | modification (k : Nat)
  deriving DecidableEq, Repr

def copyItemError (e : StmtError PgError) : DbError :=
  match e with
  | .rejected .uniqueViolation => .nameTaken
  | _ => .failure

/-- The loop over the link tables -/
def copyLinks (fresh : FreshCopy) (sourceID actor : UUID) (tx : PgTx) :
    List ItemLinks → DbProgram CopyItemStmt PgTx
  | [] => pure tx
  | t :: rest => do
    let tx ← (tx.exec (.links t) fun view =>
      t.insertCopies fresh.id actor (t.targets sourceID view)).mapError otherError
    copyLinks fresh sourceID actor tx rest

/-- The loop over the modifications, from the `k`-th -/
def copyModifications (rt : Runtime) (fresh : FreshCopy) (actor : UUID) (tx : PgTx) (k : Nat) :
    List MenuItemModificationRow → DbProgram CopyItemStmt PgTx
  | [] => pure tx
  | m :: rest => do
    let tx ← (tx.insert (.modification k) (Db.insertModification rt (m.copy (fresh.modification k) fresh.id)
      actor)).mapError otherError
    copyModifications rt fresh actor tx (k + 1) rest

/-- `copyMenuItem` -/
def copyMenuItem (rt : Runtime) (fresh : FreshCopy) (tx : PgTx) (sourceID : UUID) (categoryID : Option UUID)
    (name : String) (actor : UUID) : DbProgram CopyItemStmt PgTx := do
  let tx ← (tx.exec .item (Db.insertItemCopy rt fresh.id sourceID categoryID name actor tx.began)).mapError
    copyItemError
  let tx ← copyLinks fresh sourceID actor tx ItemLinks.all
  let modifications ← (tx.query .modifications fun db => db.listModifications rt sourceID).mapError otherError
  copyModifications rt fresh actor tx 0 modifications

/-- `CopyName`; one round more than names are taken is enough. Where a suffix leaves no room it panics, and the
transaction is rolled back. -/
def nameCopy {ℓ : Type} (rt : Runtime) (base label : String) (taken : Finset String) :
    DbProgram ℓ (String × Finset String) :=
  match copyName rt base label taken (taken.card + 1) with
  | none => throw .failure
  | some named => pure named

inductive DuplicateItemStmt where
  | begin
  | item
  | names
  | copy (s : CopyItemStmt)
  | commit
  deriving DecidableEq, Repr

/-- `DuplicateMenuItem` up to the commit -/
def stageItemDuplicate (rt : Runtime) (fresh : FreshCopy) (id : UUID) (label : String) (actor : UUID) :
    DbProgram DuplicateItemStmt PgTx := do
  let tx ← (begin .begin).mapError otherError
  let item ← (tx.queryRow .item fun db => db.livingMenuItem id).mapError scanError
  let taken ← (tx.query .names fun db => db.takenItemNames rt item.restaurantID).mapError otherError
  let named ← nameCopy rt item.name label taken
  (copyMenuItem rt fresh tx id item.categoryID named.1 actor).within .copy

def duplicateMenuItem (rt : Runtime) (fresh : FreshCopy) (id : UUID) (label : String) (actor : UUID) :
    DbProgram DuplicateItemStmt UUID := do
  let tx ← stageItemDuplicate rt fresh id label actor
  (tx.commit .commit).mapError otherError
  pure fresh.id

/-! ## Copying a category -/

structure FreshCategory where
  id : UUID
  item : Nat → FreshCopy

inductive DuplicateCategoryStmt where
  | begin
  | category
  | categoryNames
  | create
  | availability
  | items
  | itemNames
  | copy (k : Nat) (s : CopyItemStmt)
  | commit
  deriving DecidableEq, Repr

def createCategoryError (e : StmtError PgError) : DbError :=
  match e with
  | .rejected .uniqueViolation => .nameTaken
  | .rejected .foreignKeyViolation => .unknownReference
  | .noRows => .notFound
  | _ => .failure

/-- The loop over the items, from the `k`-th -/
def copyItems (rt : Runtime) (fresh : FreshCategory) (label : String) (actor : UUID) (tx : PgTx)
    (taken : Finset String) (k : Nat) : List MenuItemRow → DbProgram DuplicateCategoryStmt PgTx
  | [] => pure tx
  | item :: rest => do
    let named ← nameCopy rt item.name label taken
    let tx ← (copyMenuItem rt (fresh.item k) tx item.id (some fresh.id) named.1 actor).within (.copy k)
    copyItems rt fresh label actor tx named.2 (k + 1) rest

/-- `DuplicateCategory` up to the commit -/
def stageCategoryDuplicate (rt : Runtime) (fresh : FreshCategory) (id : UUID) (label : String) (actor : UUID) :
    DbProgram DuplicateCategoryStmt PgTx := do
  let tx ← (begin .begin).mapError otherError
  let category ← (tx.queryRow .category fun db =>
    db.menuCategories.find? fun c => c.id == id && c.deletedAt.isNone).mapError scanError
  let taken ← (tx.query .categoryNames fun db =>
    db.takenCategoryNames rt category.restaurantID).mapError otherError
  let named ← nameCopy rt category.name label taken
  let tx ← (tx.insert .create (Db.insertCategory rt
    { category with id := fresh.id, name := named.1, deletedAt := none } actor)).mapError createCategoryError
  let tx ← (tx.exec .availability fun view =>
    Db.copyCategoryAvailability fresh.id actor (view.categoryFilterIDs id)).mapError otherError
  let items ← (tx.select .items fun db => db.categoryItems rt id).mapError otherError
  let taken ← (tx.query .itemNames fun db => db.takenItemNames rt category.restaurantID).mapError otherError
  copyItems rt fresh label actor tx taken 0 items

def duplicateCategory (rt : Runtime) (fresh : FreshCategory) (id : UUID) (label : String) (actor : UUID) :
    DbProgram DuplicateCategoryStmt UUID := do
  let tx ← stageCategoryDuplicate rt fresh id label actor
  (tx.commit .commit).mapError otherError
  pure fresh.id

end Doenerstag
