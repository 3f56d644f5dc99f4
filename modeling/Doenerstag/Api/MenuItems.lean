import Doenerstag.Api.Fields
import Doenerstag.Db.MenuItems

/-!
# Menu items (`internal/api/menuitems.go`, `classification.go`)

The handlers that create and change a menu item, with their validation. Each writes the row first
and then the links of the classification, one table after the other.
-/

namespace Doenerstag

open ReadCommitted

def maxMenuNameLength : Nat := 200
def maxMenuDescriptionLength : Nat := 2000

/-- `MenuHandlers`: what the server is linked with. -/
structure MenuHandlers where
  rt : Runtime

/-- What a handler reads of a request about a restaurant's menu. -/
structure MenuRequest (β : Type) where
  id : String
  mid : String
  principal : Option Principal
  body : Except ApiError β

structure MenuResponse where
  status : Nat
  item : MenuItemDetail
  deriving DecidableEq, Repr

/-- The statements of the two handlers, by what they are for. -/
inductive MenuStmt where
  /-- `restaurantID` -/
  | restaurant
  /-- `lookupMenuItem` -/
  | item
  /-- `parseCategory` -/
  | category
  | create
  | update (s : UpdateMenuItemStmt)
  | classify (c : Classification) (s : LinksStmt)
  | detail (s : ItemDetailStmt)
  deriving DecidableEq, Repr

/-! ## Validation -/

def tooLong (field what : String) (limit : Nat) : ApiError :=
  { code := codeInvalidField, field := field
    detail := "the " ++ what ++ " may be at most " ++ toString limit ++ " characters" }

def validateMenuName (name : String) : Except ApiError Unit :=
  if name = "" then .error (.on codeMissingField "name")
  else if longerThan name maxMenuNameLength then .error (tooLong "name" "name" maxMenuNameLength)
  else .ok ()

def validateExternalID (value : String) : Except ApiError Unit :=
  if value = "" then .ok ()
  else if externalIDShape value then .ok ()
  else .error { code := codeInvalidField, field := "external_id", detail :=
    "the item number may be up to 32 letters, digits, dots, dashes or underscores" }

def validateDescription (value : String) : Except ApiError Unit :=
  if longerThan value maxMenuDescriptionLength then
    .error { code := codeInvalidField, field := "description",
             detail := "the description is too long" }
  else .ok ()

def validatePrice (cents : Int64) : Except ApiError Unit :=
  if cents < 0 then
    .error { code := codeInvalidField, field := "price_cents",
             detail := "the price may not be negative" }
  else .ok ()

/-- An identifier that may be absent, or empty. -/
def parseOptionalUUID (rt : Runtime) (value : Option String) (field : String) :
    Except ApiError (Option UUID) :=
  match value.map trimSpace with
  | none => .ok none
  | some trimmed =>
    if trimmed = "" then .ok none
    else match rt.parseUUID trimmed with
      | none => .error (invalidID field)
      | some id => .ok (some id)

/-- `CategoryByID`: one living category. -/
def categoryByID {ℓ : Type} (l : ℓ) (id : UUID) : DbProgram ℓ MenuCategoryRow :=
  (queryRow l fun db =>
    db.menuCategories.find? fun c => c.id == id && c.deletedAt.isNone).mapError scanError

/-- The key of the body that a list is sent under. -/
def Classification.field : Classification → String
  | .tag => "tag_ids"
  | .allergen => "allergen_ids"
  | .additive => "additive_ids"

/-- `classificationError` -/
def classificationError (field : String) (e : DbError) : ApiError :=
  match e with
  | .unknownReference =>
    { code := codeInvalidField, field := field,
      detail := "one of these identifiers does not exist" }
  | _ => .of codeDatabaseUnavailable

/-- An item of the same name is the field's error. -/
def menuItemWriteError (e : DbError) : ApiError :=
  match e with
  | .nameTaken => .on codeNameExistsHere "name"
  | e => dbError e

namespace MenuHandlers

variable (h : MenuHandlers)

/-- `restaurantID`: the restaurant of the path, which has to exist. -/
def restaurantID {β : Type} (r : MenuRequest β) : Handler MenuStmt UUID :=
  match h.rt.parseUUID r.id with
  | none => throw (.of codeNotFound)
  | some id => do
    let found ← (restaurantExists .restaurant id).mapError databaseUnavailable
    Prog.require found (.of codeNotFound)
    pure id

def lookupMenuItem {β : Type} (r : MenuRequest β) (restaurantID : UUID) :
    Handler MenuStmt MenuItem := do
  let item ← loadParam h.rt r.mid (menuItemByID .item)
  Prog.require (item.restaurantID == restaurantID) (.of codeNotFound)
  pure item

/-- An optional category, which has to be the restaurant's. -/
def parseCategory (restaurantID : UUID) (value : Option String) :
    Handler MenuStmt (Option UUID) := do
  match ← .ofExcept (parseOptionalUUID h.rt value "category_id") with
  | none => pure none
  | some id =>
    let category ← (categoryByID .category id).mapError fun e =>
      if e = .notFound then
        { code := codeInvalidField, field := "category_id", detail := "no category has this id" }
      else .of codeDatabaseUnavailable
    Prog.require (category.restaurantID == restaurantID)
      { code := codeInvalidField, field := "category_id"
        detail := "that category belongs to a different restaurant" }
    pure (some id)

/-! ## Classification -/

/-- One call of `SetMenuItemTags` or a sibling, with the answer to its error. -/
def setLinks (c : Classification) (itemID : UUID) (linked : List UUID) (actor : UUID) :
    Handler MenuStmt Unit :=
  ((replaceLinks c itemID linked actor).within (.classify c)).mapError (classificationError c.field)

/-- `applyClassification`: all three lists are parsed, then all three are set. -/
def applyClassification (itemID : UUID) (ids : Classification → List String) (actor : UUID) :
    Handler MenuStmt Unit := do
  let tagIDs ← .ofExcept (parseIDList h.rt (ids .tag) "tag_ids")
  let allergenIDs ← .ofExcept (parseIDList h.rt (ids .allergen) "allergen_ids")
  let additiveIDs ← .ofExcept (parseIDList h.rt (ids .additive) "additive_ids")
  setLinks .tag itemID tagIDs actor
  setLinks .allergen itemID allergenIDs actor
  setLinks .additive itemID additiveIDs actor

/-- A list is replaced only when its key was sent. -/
def setSelected (c : Classification) (itemID : UUID) (ids : Option (List String)) (actor : UUID) :
    Handler MenuStmt Unit :=
  match ids with
  | none => pure ()
  | some values => do
    let linked ← .ofExcept (parseIDList h.rt values c.field)
    setLinks c itemID linked actor

/-- `applySelectedClassification` -/
def applySelectedClassification (itemID : UUID) (ids : Classification → Option (List String))
    (actor : UUID) : Handler MenuStmt Unit := do
  h.setSelected .tag itemID (ids .tag) actor
  h.setSelected .allergen itemID (ids .allergen) actor
  h.setSelected .additive itemID (ids .additive) actor

/-- `writeItem`: the item and everything hanging off it. -/
def writeItem (id : UUID) (status : Nat) : Handler MenuStmt MenuResponse := do
  let item ← ((menuItemWithDetail id).within .detail).mapError databaseUnavailable
  pure { status, item }

/-! ## Creating -/

/-- The body of POST; a list that is absent is empty. -/
structure MenuItemRequest where
  categoryID : Option String
  externalID : String
  name : String
  description : String
  imageID : Option String
  priceCents : Int64
  available : Option Bool
  ids : Classification → List String

/-- `createItem` up to `CreateMenuItem`. -/
def acceptNewItem (r : MenuRequest MenuItemRequest) :
    Handler MenuStmt (UUID × NewMenuItem × MenuItemRequest) := do
  let restaurantID ← h.restaurantID r
  let principal ← .ofExcept (requireAuthenticated r.principal)
  let body ← .ofExcept r.body
  let name := trimSpace body.name
  Prog.ofExcept (validateMenuName name)
  let externalID := trimSpace body.externalID
  Prog.ofExcept (validateExternalID externalID)
  Prog.ofExcept (validateDescription body.description)
  Prog.ofExcept (validatePrice body.priceCents)
  let categoryID ← h.parseCategory restaurantID body.categoryID
  let imageID ← .ofExcept (parseOptionalUUID h.rt body.imageID "image_id")
  pure (principal.userID,
    { restaurantID := restaurantID
      categoryID := categoryID
      externalID := externalID
      name := name
      description := trimSpace body.description
      imageID := imageID
      priceCents := body.priceCents
      available := body.available.getD true },
    body)

def createItem (id : UUID) (r : MenuRequest MenuItemRequest) : Handler MenuStmt MenuResponse := do
  let (actor, item, body) ← h.acceptNewItem r
  let created ← (createMenuItem h.rt .create id actor item).mapError menuItemWriteError
  h.applyClassification created.id body.ids actor
  writeItem created.id 201

/-! ## Changing -/

/-- The body of PATCH. For the nullable columns and the lists the key may be absent, which leaves
them alone. -/
structure PatchMenuItemRequest where
  categoryID : Option (Option String)
  externalID : Option String
  name : Option String
  description : Option String
  imageID : Option (Option String)
  priceCents : Option Int64
  available : Option Bool
  ids : Classification → Option (List String)

def validateItemPatch (restaurantID : UUID) (body : PatchMenuItemRequest) :
    Handler MenuStmt MenuItemUpdate := do
  let name ← .ofExcept (body.name.mapM fun v => do
    validateMenuName (trimSpace v)
    pure (trimSpace v))
  let externalID ← .ofExcept (body.externalID.mapM fun v => do
    validateExternalID (trimSpace v)
    pure (trimSpace v))
  let description ← .ofExcept (body.description.mapM fun v => do
    validateDescription v
    pure (trimSpace v))
  let priceCents ← .ofExcept (body.priceCents.mapM fun v => do
    validatePrice v
    pure v)
  let categoryID ← whenPresent body.categoryID fun v => h.parseCategory restaurantID v
  let imageID ← whenPresent body.imageID fun v => .ofExcept (parseOptionalUUID h.rt v "image_id")
  pure { categoryID, externalID, name, description, imageID, priceCents
         available := body.available }

/-- `patchItem` up to `UpdateMenuItem`. -/
def acceptItemPatch (r : MenuRequest PatchMenuItemRequest) :
    Handler MenuStmt (UUID × UUID × MenuItemUpdate × PatchMenuItemRequest) := do
  let restaurantID ← h.restaurantID r
  let principal ← .ofExcept (requireAuthenticated r.principal)
  let item ← h.lookupMenuItem r restaurantID
  let body ← .ofExcept r.body
  let change ← h.validateItemPatch restaurantID body
  pure (principal.userID, item.id, change, body)

def patchItem (r : MenuRequest PatchMenuItemRequest) : Handler MenuStmt MenuResponse := do
  let (actor, id, change, body) ← h.acceptItemPatch r
  let updated ← ((updateMenuItem h.rt id actor change).within .update).mapError menuItemWriteError
  h.applySelectedClassification updated.id body.ids actor
  writeItem updated.id 200

/-! ## What the handlers read before they write -/

theorem restaurantID_reads {β : Type} (r : MenuRequest β) :
    (h.restaurantID r).Reads fun _ => True := by
  unfold restaurantID
  cases h.rt.parseUUID r.id with
  | none => exact .fail _
  | some id =>
    exact .bind ((restaurantExists_reads trivial id).mapError _) fun _ =>
      .bind (.require _ _) fun _ => .done _

theorem menuItemByID_reads {ℓ : Type} {L : ℓ → Prop} {l : ℓ} (hl : L l) (id : UUID) :
    (menuItemByID l id).Reads L :=
  (queryRow_reads hl).mapError _

theorem lookupMenuItem_reads {β : Type} (r : MenuRequest β) (restaurantID : UUID) :
    (h.lookupMenuItem r restaurantID).Reads fun _ => True :=
  .bind (loadParam_reads fun id => menuItemByID_reads trivial id) fun _ =>
    .bind (.require _ _) fun _ => .done _

theorem parseCategory_reads (restaurantID : UUID) (value : Option String) :
    (h.parseCategory restaurantID value).Reads fun _ => True := by
  refine .bind (.ofExcept _) fun id => ?_
  cases id with
  | none => exact .done _
  | some id =>
    exact .bind (.mapError (.mapError (queryRow_reads trivial) _) _) fun _ =>
      .bind (.require _ _) fun _ => .done _

theorem acceptNewItem_reads (r : MenuRequest MenuItemRequest) :
    (h.acceptNewItem r).Reads fun _ => True := by
  refine .bind (h.restaurantID_reads r) fun restaurantID => .bind (.ofExcept _) fun _ => ?_
  refine .bind (.ofExcept _) fun body => .bind (.ofExcept _) fun _ => ?_
  refine .bind (.ofExcept _) fun _ => .bind (.ofExcept _) fun _ => .bind (.ofExcept _) fun _ => ?_
  exact .bind (h.parseCategory_reads _ _) fun _ => .bind (.ofExcept _) fun _ => .done _

theorem validateItemPatch_reads (restaurantID : UUID) (body : PatchMenuItemRequest) :
    (h.validateItemPatch restaurantID body).Reads fun _ => True := by
  refine .bind (.ofExcept _) fun _ => .bind (.ofExcept _) fun _ => ?_
  refine .bind (.ofExcept _) fun _ => .bind (.ofExcept _) fun _ => ?_
  refine .bind (whenPresent_reads fun v => h.parseCategory_reads _ v) fun _ => ?_
  exact .bind (whenPresent_reads fun _ => .ofExcept _) fun _ => .done _

theorem acceptItemPatch_reads (r : MenuRequest PatchMenuItemRequest) :
    (h.acceptItemPatch r).Reads fun _ => True := by
  refine .bind (h.restaurantID_reads r) fun restaurantID => .bind (.ofExcept _) fun _ => ?_
  refine .bind (h.lookupMenuItem_reads r restaurantID) fun _ => .bind (.ofExcept _) fun body => ?_
  exact .bind (h.validateItemPatch_reads restaurantID body) fun _ => .done _

theorem writeItem_reads (id : UUID) (status : Nat) :
    (writeItem id status).Reads fun _ => True := by
  have hdetail : (menuItemWithDetail id).Reads fun _ => True :=
    .bind ((queryRow_reads trivial).mapError _) fun _ =>
      .bind ((query_reads trivial).mapError _) fun _ =>
        .bind ((query_reads trivial).mapError _) fun _ =>
          .bind ((query_reads trivial).mapError _) fun _ =>
            .bind ((query_reads trivial).mapError _) fun _ => .done _
  exact .bind (hdetail.within.mapError _) fun _ => .done _

end MenuHandlers

end Doenerstag
