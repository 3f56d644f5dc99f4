import Doenerstag.Db.OrderItems

/-!
# Menu items (`internal/db/menu.go`, `classification.go`)

`CreateMenuItem`, `UpdateMenuItem`, the replacement of an item's tags, allergens and additives, and
the read of an item with all that. Everything runs on the pool, so each statement commits by itself.
-/

namespace Doenerstag

open ReadCommitted Prog

/-! ## The row -/

@[simps] def Db.setMenuItems (db : Db) (rows : List MenuItemRow) : Db :=
  { db with menuItems := rows }

/-- `menuItemColumns` -/
structure MenuItem where
  id : UUID
  restaurantID : UUID
  categoryID : Option UUID
  externalID : String
  name : String
  description : String
  imageID : Option UUID
  priceCents : Int64
  available : Bool
  createdAt : Time
  updatedAt : Time
  deriving DecidableEq, Repr

def MenuItemRow.scan (m : MenuItemRow) : MenuItem :=
  { id := m.id
    restaurantID := m.restaurantID
    categoryID := m.categoryID
    externalID := m.externalID.getD ""
    name := m.name
    description := m.description.getD ""
    imageID := m.imageID
    priceCents := m.priceCents
    available := m.available
    createdAt := m.createdAt
    updatedAt := m.updatedAt }

/-- A character of a restaurant's item number. -/
def externalIDChar (c : Char) : Bool :=
  c.isAlphanum || c == '.' || c == '_' || c == '-'

/-- `^[A-Za-z0-9._-]{1,32}$`, in the handler and in the `CHECK` constraint. -/
def externalIDShape (value : String) : Bool :=
  1 ≤ value.length && value.length ≤ 32 && value.toList.all externalIDChar

namespace Db

/-- `menu_item_name_key`: another living item of the restaurant has the name, up to case. -/
def menuItemNameTaken (db : Db) (rt : Runtime) (row : MenuItemRow) : Bool :=
  db.menuItems.any fun m => m.id != row.id && m.restaurantID == row.restaurantID &&
    m.deletedAt.isNone && rt.lower m.name == rt.lower row.name

/-- Everything a menu item refers to is there. -/
def knowsMenuItemReferences (db : Db) (m : MenuItemRow) : Bool :=
  (db.restaurants.any fun r => r.id == m.restaurantID) &&
    m.categoryID.all (fun id =>
      db.menuCategories.any fun c => c.restaurantID == m.restaurantID && c.id == id) &&
    m.imageID.all (fun id => db.images.any fun i => i.id == id) &&
    m.updatedBy.all fun id => (db.userByID id).isSome

/-- What the schema says of the new row of an item. -/
def checkMenuItem (rt : Runtime) (row : MenuItemRow) (db : Db) : Except PgError Unit :=
  if ¬ row.Check ∨ ¬ row.externalID.all externalIDShape then .error .checkViolation
  else if row.deletedAt.isNone && db.menuItemNameTaken rt row then .error .uniqueViolation
  else if !db.knowsMenuItemReferences row then .error .foreignKeyViolation
  else .ok ()

/-- `INSERT INTO menu_item … RETURNING` -/
def insertMenuItem (rt : Runtime) (row : MenuItemRow) (db : Db) :
    Except PgError (Db × Option MenuItem) :=
  if (db.menuItem row.id).isSome then .error .uniqueViolation
  else (db.checkMenuItem rt row).map fun _ =>
    (db.setMenuItems (db.menuItems ++ [row]), some row.scan)

/-- The living item with the id. -/
def livingMenuItem (db : Db) (id : UUID) : Option MenuItemRow :=
  (db.menuItem id).filter fun m => m.deletedAt.isNone

end Db

/-- An update of a row, with the trigger `set_updated_at`. -/
def MenuItemRow.update (actor : UUID) (now : Time) (f : MenuItemRow → MenuItemRow)
    (m : MenuItemRow) : MenuItemRow :=
  if f m = m then { m with updatedBy := some actor }
  else { f m with updatedAt := pgTime now, updatedBy := some actor }

/-- `UPDATE menu_item SET … WHERE id = … AND deleted_at IS NULL RETURNING` -/
def Db.updateMenuItem (rt : Runtime) (id actor : UUID) (f : MenuItemRow → MenuItemRow) (now : Time)
    (db : Db) : Except PgError (Db × Option MenuItem) :=
  match db.livingMenuItem id with
  | none => .ok (db, none)
  | some m =>
    let new := m.update actor now f
    (db.checkMenuItem rt new).map fun _ =>
      (db.setMenuItems (db.menuItems.map fun p => if p.id == id then new else p), some new.scan)

/-- What `CreateMenuItem` and `UpdateMenuItem` make of an error. -/
def menuItemError (e : StmtError PgError) : DbError :=
  match e with
  | .rejected .uniqueViolation => .nameTaken
  | .rejected .foreignKeyViolation => .unknownReference
  | .noRows => .notFound
  | _ => .failure

/-! ## Creating and changing -/

structure NewMenuItem where
  restaurantID : UUID
  categoryID : Option UUID
  externalID : String
  name : String
  description : String
  imageID : Option UUID
  priceCents : Int64
  available : Bool
  deriving DecidableEq, Repr

def NewMenuItem.row (item : NewMenuItem) (id actor : UUID) (now : Time) : MenuItemRow :=
  { id := id
    restaurantID := item.restaurantID
    categoryID := item.categoryID
    externalID := nullIfEmpty item.externalID
    name := item.name
    description := nullIfEmpty item.description
    imageID := item.imageID
    priceCents := item.priceCents
    available := item.available
    deletedAt := none
    createdAt := pgTime now
    updatedAt := pgTime now
    updatedBy := some actor }

def createMenuItem {ℓ : Type} (rt : Runtime) (l : ℓ) (id actor : UUID) (item : NewMenuItem) :
    DbProgram ℓ MenuItem :=
  (returning l fun now => Db.insertMenuItem rt (item.row id actor now)).mapError menuItemError

def menuItemByID {ℓ : Type} (l : ℓ) (id : UUID) : DbProgram ℓ MenuItem :=
  (queryRow l fun db => (db.livingMenuItem id).map MenuItemRow.scan).mapError scanError

/-- A field that is absent stays as it is; a category or an image that is present and `none` is
cleared. -/
structure MenuItemUpdate where
  categoryID : Option (Option UUID)
  externalID : Option String
  name : Option String
  description : Option String
  imageID : Option (Option UUID)
  priceCents : Option Int64
  available : Option Bool
  deriving DecidableEq, Repr

def MenuItemUpdate.empty : MenuItemUpdate :=
  { categoryID := none, externalID := none, name := none, description := none, imageID := none
    priceCents := none, available := none }

def MenuItemUpdate.apply (change : MenuItemUpdate) (m : MenuItemRow) : MenuItemRow :=
  { m with
    categoryID := change.categoryID.getD m.categoryID
    externalID := (change.externalID.map nullIfEmpty).getD m.externalID
    name := change.name.getD m.name
    description := (change.description.map nullIfEmpty).getD m.description
    imageID := change.imageID.getD m.imageID
    priceCents := change.priceCents.getD m.priceCents
    available := change.available.getD m.available }

inductive UpdateMenuItemStmt where
  | update
  | read
  deriving DecidableEq, Repr

/-- Without a field there is nothing to update. -/
def updateMenuItem (rt : Runtime) (id actor : UUID) (change : MenuItemUpdate) :
    DbProgram UpdateMenuItemStmt MenuItem :=
  if change = .empty then
    menuItemByID .read id
  else
    (returning .update (Db.updateMenuItem rt id actor change.apply)).mapError menuItemError

/-! ## Classification -/

/-- The three join tables, with the table each refers to. -/
inductive Classification where
  | tag
  | allergen
  | additive
  deriving DecidableEq, Repr

namespace Classification

def links (c : Classification) (db : Db) : List MenuItemLinkRow :=
  match c with
  | tag => db.menuItemTags
  | allergen => db.menuItemAllergens
  | additive => db.menuItemAdditives

def setLinks (c : Classification) (db : Db) (rows : List MenuItemLinkRow) : Db :=
  match c with
  | tag => { db with menuItemTags := rows }
  | allergen => { db with menuItemAllergens := rows }
  | additive => { db with menuItemAdditives := rows }

def known (c : Classification) (db : Db) (id : UUID) : Bool :=
  match c with
  | tag => db.tags.any fun t => t.id == id
  | allergen => db.allergens.any fun a => a.id == id
  | additive => db.additives.any fun a => a.id == id

/-- `DELETE FROM … WHERE menu_item_id = … AND … <> ALL (…)` -/
def clearLinks (c : Classification) (itemID : UUID) (linked : List UUID) (db : Db) :
    Except PgError (Db × Nat) :=
  let stale (l : MenuItemLinkRow) : Bool := l.menuItemID == itemID && !linked.contains l.targetID
  .ok (c.setLinks db ((c.links db).filter fun l => !stale l), (c.links db).countP stale)

/-- The links that are not there yet. -/
def missing (c : Classification) (db : Db) (itemID : UUID) (linked : List UUID) : List UUID :=
  (linked.filter fun id => !(c.links db).contains { menuItemID := itemID, targetID := id }).eraseDups

/-- `INSERT INTO … SELECT …, unnest(…) ON CONFLICT DO NOTHING` -/
def insertLinks (c : Classification) (itemID actor : UUID) (linked : List UUID) (db : Db) :
    Except PgError (Db × Nat) :=
  let new := c.missing db itemID linked
  let referred (id : UUID) : Bool :=
    (db.menuItem itemID).isSome && c.known db id && (db.userByID actor).isSome
  if !new.all referred then .error .foreignKeyViolation
  else .ok (c.setLinks db (c.links db ++ new.map fun id => { menuItemID := itemID, targetID := id }),
    new.length)

end Classification

theorem Classification.links_setLinks (c : Classification) (db : Db) (rows : List MenuItemLinkRow) :
    c.links (c.setLinks db rows) = rows := by
  cases c <;> rfl

theorem mem_missing {c : Classification} {db : Db} {itemID id : UUID} {linked : List UUID} :
    id ∈ c.missing db itemID linked ↔
      id ∈ linked ∧ { menuItemID := itemID, targetID := id } ∉ c.links db := by
  unfold Classification.missing
  rw [List.mem_eraseDups, List.mem_filter]
  simp

inductive LinksStmt where
  | clear
  | insert
  deriving DecidableEq, Repr

def linksError (e : StmtError PgError) : DbError :=
  match e with
  | .rejected .foreignKeyViolation => .unknownReference
  | _ => .failure

/-- `replaceLinks`, which `SetMenuItemTags` and its two siblings are calls of. -/
def replaceLinks (c : Classification) (itemID : UUID) (linked : List UUID) (actor : UUID) :
    DbProgram LinksStmt Unit := do
  let _ ← (exec .clear fun _ => c.clearLinks itemID linked).mapError otherError
  if linked.isEmpty then
    pure ()
  else
    let _ ← (exec .insert fun _ => c.insertLinks itemID actor linked).mapError linksError
    pure ()

/-- A statement that only sets links of a kind does what setting links does. -/
theorem exec_setLinks {ℓ : Type} {P : World Db Time → World Db Time → Prop} {c : Classification}
    {l : ℓ} {u : Time → Db → Except PgError (Db × Nat)} (hrefl : ∀ w, P w w)
    (hset : ∀ w rows, P w { w with db := c.setLinks w.db rows })
    (hu : ∀ now db db' rows, u now db = .ok (db', rows) → ∃ new, db' = c.setLinks db new) :
    (exec l u : Program ℓ Db Time (StmtError PgError) Nat).Steps fun _ => P := by
  refine exec_steps hrefl fun w r hupdate => ?_
  obtain ⟨new, hnew⟩ := hu _ _ _ _ hupdate
  rw [hnew]
  exact hset w new

theorem replaceLinks_steps {P : World Db Time → World Db Time → Prop} (c : Classification)
    (itemID : UUID) (linked : List UUID) (actor : UUID) (hrefl : ∀ w, P w w)
    (hset : ∀ w rows, P w { w with db := c.setLinks w.db rows }) :
    (replaceLinks c itemID linked actor).Steps fun _ => P := by
  refine .bind (.mapError (exec_setLinks hrefl hset fun _ db db' rows hu => ?_) _) fun _ => ?_
  · cases hu
    exact ⟨_, rfl⟩
  · split_ifs
    · exact steps_done _
    · refine .bind (.mapError (exec_setLinks hrefl hset fun _ db db' rows hu => ?_) _)
        fun _ => steps_done _
      unfold Classification.insertLinks at hu
      simp only at hu
      split_ifs at hu
      cases hu
      exact ⟨_, rfl⟩

/-! ## Reading an item with its classification and modifications -/

inductive ItemDetailStmt where
  | item
  | tags
  | allergens
  | additives
  | modifications
  deriving DecidableEq, Repr

/-- The tags, allergens and additives by their ids; how the answer renders them is left out. -/
structure MenuItemDetail extends MenuItem where
  tags : List UUID
  allergens : List UUID
  additives : List UUID
  modifications : List MenuItemModificationRow
  deriving DecidableEq, Repr

def Classification.of (c : Classification) (itemID : UUID) (db : Db) : List UUID :=
  ((c.links db).filter fun l => l.menuItemID == itemID).map MenuItemLinkRow.targetID

def Db.livingModifications (db : Db) (itemID : UUID) : List MenuItemModificationRow :=
  db.menuItemModifications.filter fun m => m.menuItemID == itemID && m.deletedAt.isNone

def menuItemWithDetail (id : UUID) : DbProgram ItemDetailStmt MenuItemDetail := do
  let item ← menuItemByID .item id
  let tags ← (query .tags (Classification.tag.of id)).mapError otherError
  let allergens ← (query .allergens (Classification.allergen.of id)).mapError otherError
  let additives ← (query .additives (Classification.additive.of id)).mapError otherError
  let modifications ← (query .modifications fun db => db.livingModifications id).mapError otherError
  pure { item with tags, allergens, additives, modifications }

end Doenerstag
