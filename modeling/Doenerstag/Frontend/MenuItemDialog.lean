import Doenerstag.Api.Attachments
import Doenerstag.Api.MenuItems
import Doenerstag.Api.Modifications
import Doenerstag.Db.MenuListed
import Doenerstag.Frontend.Controls
import Doenerstag.Frontend.OrderDialog

/-!
# The menu item dialog (`frontend/src/components/menuitem.ts`)

The dialog that changes a dish. Saving it sends every field, and whole sets of tags, allergens and additives: those
of the boxes that are ticked, and there are boxes for what the page once fetched. The filters of the dish go with a
second request, if those of the restaurant had come by then.

* `openMenuItemEditor`, `MenuItemDialog.submit`, `DishEdit.picked` — the dialog, and what it sends.
* `DishKept` — the row, the three sets of links and the filters of the dish are as they were.
* `DialogKeeps` — its texts come through the controls, and the page knows all that it is linked to.
* `DishRead.apply_eq_self_iff` — **the change that is sent changes no column if and only if the dialog keeps them.**
-/

namespace Doenerstag

open ReadCommitted Prog

/-! ## The dish on the page -/

/-- `MenuItem`; the tags, allergens, additives and filters by their ids -/
structure DishBody where
  id : String
  categoryID : Option String
  externalID : String
  name : String
  description : String
  imageID : Option String
  priceCents : Int64
  available : Bool
  marks : Classification → List String
  availability : List String

/-- `publicMenuItem`, with the filters that `decorateItems` adds -/
def publicDish (m : MenuItem) (marks : Classification → List UUID) (own : List AvailabilityFilter) : DishBody :=
  { id := m.id.string
    categoryID := m.categoryID.map UUID.string
    externalID := m.externalID
    name := m.name
    description := m.description
    imageID := m.imageID.map UUID.string
    priceCents := m.priceCents
    available := m.available
    marks := fun c => (marks c).map UUID.string
    availability := own.map fun f => f.id.string }

/-- The page has the dish as it is stored. -/
structure DishShown (db : Db) (row : MenuItemRow) (item : DishBody) : Prop where
  id : item.id = row.id.string
  categoryID : item.categoryID = row.categoryID.map UUID.string
  externalID : item.externalID = row.externalID.getD ""
  name : item.name = row.name
  description : item.description = row.description.getD ""
  imageID : item.imageID = row.imageID.map UUID.string
  priceCents : item.priceCents = row.priceCents
  available : item.available = row.available
  marks : ∀ c t, t ∈ item.marks c ↔ ∃ id ∈ c.of row.id db, id.string = t
  availability : ∀ t, t ∈ item.availability ↔ ∃ id ∈ db.attachedTo row.id, id.string = t

/-- So it is, when it comes from the list of a menu. -/
theorem dishShown_listed {db : Db} (hvalid : db.Valid) {row : MenuItemRow} (hrow : row ∈ db.menuItems) (rt : Runtime)
    {ids : List UUID} (hid : row.id ∈ ids) : DishShown db row (publicDish row.scan
      (fun c => targetsIn (c.linksOf ids db) row.id) (db.filtersByMenuItem rt row.restaurantID row.id)) := by
  constructor
  case marks =>
    intro c t
    have hmem : ∀ id, id ∈ targetsIn (c.linksOf ids db) row.id ↔ id ∈ c.of row.id db := by
      intro id
      have hknown : ∀ l ∈ c.links db, c.known db l.targetID = true :=
        fun l hl => ItemLinks.known_target hvalid.refs (.classified c) hl
      simp only [targetsIn, Classification.linksOf, Classification.of, List.filter_filter, List.mem_map,
        List.mem_filter, Bool.and_eq_true, beq_iff_eq, List.contains_iff_mem]
      constructor
      · rintro ⟨l, ⟨hl, hown, -⟩, rfl⟩
        exact ⟨l, ⟨hl, hown⟩, rfl⟩
      · rintro ⟨l, ⟨hl, hown⟩, rfl⟩
        exact ⟨l, ⟨hl, hown, hown ▸ hid, hknown l hl⟩, rfl⟩
    simp only [publicDish, List.mem_map, hmem]
  case availability =>
    intro t
    simp only [publicDish, List.mem_map, Db.mem_filtersByMenuItem hrow, Db.filtersForMenuItem, Db.mem_filtersForOne,
      Db.attachedTo]
    constructor
    · rintro ⟨f, ⟨id, hattached, frow, hfound, rfl⟩, rfl⟩
      have hsame : frow.id = id := by simpa using List.find?_some hfound
      exact ⟨id, hattached, by rw [← hsame]; rfl⟩
    · rintro ⟨id, ⟨a, ha, rfl⟩, rfl⟩
      -- what is attached is there
      obtain ⟨frow, hfrow, hkey⟩ := hvalid.refs.itemAvailabilityFilter a (List.mem_of_mem_filter ha) _ rfl
      have hfound := Tables.find?_key hvalid.keys.availabilityFilters hfrow
      refine ⟨Db.scanAvailabilityFilter frow, ⟨a.filterID, ⟨a, ha, rfl⟩, frow, ?_, rfl⟩, ?_⟩
      · rw [← hkey]
        exact hfound
      · exact congrArg UUID.string hkey
  all_goals rfl

/-! ## The dialog -/

/-- Who edits which dish, on which page -/
structure DishEdit where
  restaurantID : String
  principal : Option Principal
  t : String → String
  money : MoneyFormat
  categories : List Choice
  /-- the ids in the reference data that the page has kept -/
  reference : Classification → List String
  item : DishBody
  /-- the answer to the request for the filters, if it had come when the dish was saved, or its failure -/
  filters : Option (Option (List String))

/-- The values of the controls -/
structure MenuItemDialog where
  name : String
  externalID : String
  price : Text
  description : String
  available : Bool
  category : String
  imageID : Option String
  marks : Classification → List String

/-- `openMenuItemEditor`, for a dish there is. Both pages that open it give it the dish's own category. -/
def openMenuItemEditor (e : DishEdit) : MenuItemDialog :=
  { name := inputValue e.item.name
    externalID := inputValue e.item.externalID
    price := inputChars (moneyInputValue e.item.priceCents.toInt e.money)
    description := textareaValue e.item.description
    available := e.item.available
    category := selected (⟨"", e.t "menu.category.none"⟩ :: e.categories) (e.item.categoryID.getD "")
    imageID := e.item.imageID
    marks := fun c => checkboxGroup (e.reference c) fun id => (e.item.marks c).contains id }

/-- The body of the first request -/
structure MenuItemPayload where
  categoryID : Option String
  externalID : String
  name : String
  description : String
  imageID : Option String
  priceCents : ℤ
  available : Bool
  ids : Classification → List String

/-- `onSubmit`: a price that cannot be read is not sent. -/
def MenuItemDialog.submit (d : MenuItemDialog) (money : MoneyFormat) : Option MenuItemPayload :=
  (parseMoney d.price money).map fun cents =>
    { categoryID := if d.category = "" then none else some d.category
      externalID := trimText d.externalID
      name := trimText d.name
      description := trimText d.description
      imageID := d.imageID
      priceCents := cents
      available := d.available
      ids := d.marks }

/-- A number that an `int64` of a body can hold -/
def decodeCents (cents : ℤ) : Except ApiError Int64 :=
  if Int64.minValue.toInt ≤ cents ∧ cents ≤ Int64.maxValue.toInt then .ok (.ofInt cents)
  else .error { code := codeInvalidField, field := "price_cents", detail := "expected a int64" }

/-- `patchMenuItemRequest`: every key is there. -/
def MenuItemPayload.decode (payload : MenuItemPayload) : Except ApiError MenuHandlers.PatchMenuItemRequest :=
  (decodeCents payload.priceCents).map fun cents =>
    { categoryID := some payload.categoryID
      externalID := some payload.externalID
      name := some payload.name
      description := some payload.description
      imageID := some payload.imageID
      priceCents := some cents
      available := some payload.available
      ids := fun c => some (payload.ids c) }

/-- The first request -/
def DishEdit.request (e : DishEdit) (payload : MenuItemPayload) : MenuRequest MenuHandlers.PatchMenuItemRequest :=
  { id := e.restaurantID, mid := e.item.id, principal := e.principal, body := payload.decode }

/-- What is sent when the dialog is saved as it was opened, if something is -/
def DishEdit.sent (e : DishEdit) : Option (MenuRequest MenuHandlers.PatchMenuItemRequest) :=
  ((openMenuItemEditor e).submit e.money).map e.request

/-- The filters that are ticked: there is no picker before their request is answered, and none for no filters. A
request that fails is answered with none. -/
def DishEdit.picked (e : DishEdit) : Option (List String) :=
  e.filters.bind fun answer =>
    let filters := answer.getD []
    if filters = [] then none
    else some (checkboxGroup filters fun id => e.item.availability.contains id)

/-- `saveAttachments` -/
def DishEdit.attachments (e : DishEdit) (filterIDs : List String) : MenuRequest (List String) :=
  { id := e.restaurantID, mid := e.item.id, principal := e.principal, body := .ok filterIDs }

inductive DishStmt where
  | patch (s : MenuStmt)
  | availability (s : SetAvailabilityStmt)
  deriving DecidableEq, Repr

/-- The dialog is opened and saved. -/
def MenuHandlers.saveMenuItem (h : MenuHandlers) (e : DishEdit) : Handler DishStmt (Option MenuResponse) :=
  match e.sent with
  | none => pure none
  | some r => do
    let answer ← (h.patchItem r).within .patch
    match e.picked with
    | none => pure (some answer)
    | some filterIDs => do
      let _ ← (h.setItemAvailability (e.attachments filterIDs)).within .availability
      pure (some answer)

/-! ## The modifications in it -/

/-- What is typed for a modification: one that there is, or a new one behind the others -/
structure ModificationEdit where
  restaurantID : String
  itemID : String
  principal : Option Principal
  money : MoneyFormat
  name : String
  delta : Text
  existing : Option String
  sortOrder : Int64

/-- `parseMoney(delta.value, money) ?? 0` -/
def ModificationEdit.cents (e : ModificationEdit) : ℤ := (parseMoney e.delta e.money).getD 0

/-- `save` and `add` of `modificationsBlock` -/
def MenuHandlers.saveModification (h : MenuHandlers) (fresh : UUID) (e : ModificationEdit) :
    Handler ModificationStmt (Option MenuItemModificationRow) :=
  match e.existing with
  | some k => do
    let m ← h.patchModification k
      { id := e.restaurantID, mid := e.itemID, principal := e.principal
        body := (decodeCents e.cents).map fun cents =>
          { name := some (trimText e.name), priceDeltaCents := some cents, sortOrder := none } }
    pure (some m)
  | none =>
    if trimText e.name = "" then pure none
    else do
      let m ← h.createModification fresh
        { id := e.restaurantID, mid := e.itemID, principal := e.principal
          body := (decodeCents e.cents).map fun cents =>
            { name := trimText e.name, priceDeltaCents := cents, sortOrder := e.sortOrder } }
      pure (some m)

/-! ## What is to stay -/

/-- The links of a kind are as they were. -/
def SameMarks (row : MenuItemRow) (db db' : Db) (c : Classification) : Prop :=
  ∀ id, id ∈ c.of row.id db' ↔ id ∈ c.of row.id db

/-- The filters are as they were. -/
def SameFilters (row : MenuItemRow) (db db' : Db) : Prop :=
  ∀ id, id ∈ db'.attachedTo row.id ↔ id ∈ db.attachedTo row.id

/-- The row, the three sets of links and the filters of the dish are as they were. -/
structure DishKept (row : MenuItemRow) (db db' : Db) : Prop where
  stored : db'.menuItem row.id = some row
  marks : ∀ c, SameMarks row db db' c
  filters : SameFilters row db db'

/-- A text that may be absent comes back as it is. -/
structure KeepsColumn (breaks : List Char) (column : Option String) : Prop where
  notEmpty : column ≠ some ""
  text : KeepsText breaks (column.getD "")

/-- The texts come through the controls, the price is read as it is shown, and the category is offered. -/
structure KeepsRow (e : DishEdit) (row : MenuItemRow) : Prop where
  externalID : KeepsColumn oneLine row.externalID
  name : KeepsText oneLine row.name
  description : KeepsColumn manyLines row.description
  price : parseMoney (moneyInputValue row.priceCents.toInt e.money) e.money = some row.priceCents.toInt
  category : ∀ id ∈ row.categoryID, ∃ category ∈ e.categories, category.value = id.string

/-- There is a box for everything that the dish is linked to. -/
def KeepsMarks (e : DishEdit) (db : Db) (row : MenuItemRow) (c : Classification) : Prop :=
  ∀ id ∈ c.of row.id db, id.string ∈ e.reference c

/-- No filters have come, or those of the dish are among them. -/
def KeepsFilters (e : DishEdit) (db : Db) (row : MenuItemRow) : Prop :=
  ∀ filters, e.filters = some (some filters) → filters ≠ [] → ∀ id ∈ db.attachedTo row.id, id.string ∈ filters

/-- Who saves the dialog was the last to change the dish. -/
def SavedAgain (e : DishEdit) (row : MenuItemRow) : Prop :=
  ∃ p, e.principal = some p ∧ row.updatedBy = some p.userID

/-- The dialog keeps the dish. -/
structure DialogKeeps (e : DishEdit) (db : Db) (row : MenuItemRow) : Prop where
  columns : KeepsRow e row
  savedAgain : SavedAgain e row
  marks : ∀ c, KeepsMarks e db row c
  filters : KeepsFilters e db row

/-- The identifiers of the dish can be read back from their texts. -/
structure ReadsDish (rt : Runtime) (db : Db) (row : MenuItemRow) : Prop where
  item : rt.parseUUID row.id.string = some row.id
  category : ∀ id ∈ row.categoryID, rt.parseUUID id.string = some id
  image : ∀ id ∈ row.imageID, rt.parseUUID id.string = some id
  marks : ∀ (c : Classification), ∀ id ∈ c.of row.id db, rt.parseUUID id.string = some id
  filters : ∀ id ∈ db.attachedTo row.id, rt.parseUUID id.string = some id

/-! ## What becomes of the columns -/

section Columns

variable {rt : Runtime} {db : Db} {row : MenuItemRow} {e : DishEdit} {payload : MenuItemPayload}

/-- A change is what the payload says. -/
structure DishRead (rt : Runtime) (payload : MenuItemPayload) (change : MenuItemUpdate) : Prop where
  name : change.name = some (trimSpace payload.name)
  externalID : change.externalID = some (trimSpace payload.externalID)
  description : change.description = some (trimSpace payload.description)
  priceCents : ∃ cents, decodeCents payload.priceCents = .ok cents ∧ change.priceCents = some cents
  available : change.available = some payload.available
  categoryID : ∃ id, parseOptionalUUID rt payload.categoryID "category_id" = .ok id ∧ change.categoryID = some id
  imageID : ∃ id, parseOptionalUUID rt payload.imageID "image_id" = .ok id ∧ change.imageID = some id

/-- A text that was checked and trimmed -/
theorem checkedText_eq_ok {v : String} (check : String → Except ApiError Unit) {r : Option String}
    (h : ((some v).mapM fun v => do
      check v
      pure (trimSpace v)) = .ok r) : r = some (trimSpace v) := by
  obtain ⟨hnone, -⟩ | ⟨v', t, hv, ht, rfl⟩ := exceptMapM_eq_ok h
  · cases hnone
  · cases hv
    obtain ⟨u, -, ht⟩ := exceptBind_eq_ok ht
    cases ht
    rfl

theorem parseCategory_returns {h : MenuHandlers} {I : World Db Time → Prop} (restaurantID : UUID)
    (value : Option String) : (h.parseCategory restaurantID value).Returns I fun id =>
      parseOptionalUUID h.rt value "category_id" = .ok id := by
  refine .bind (.ofExcept fun id hid => hid) fun id hid => ?_
  cases id with
  | none => exact returns_done.mpr hid
  | some id => exact .bind (.trivially _) fun _ _ => .bind (.trivially _) fun _ _ => returns_done.mpr hid

theorem validateItemPatch_returns {h : MenuHandlers} {I : World Db Time → Prop} (restaurantID : UUID)
    {body : MenuHandlers.PatchMenuItemRequest} (hbody : payload.decode = .ok body) :
    (h.validateItemPatch restaurantID body).Returns I (DishRead h.rt payload) := by
  obtain ⟨cents, hcents, rfl⟩ := exceptMap_eq_ok hbody
  unfold MenuHandlers.validateItemPatch
  refine .bind (.ofExcept fun r hr => hr) fun name hname => .bind (.ofExcept fun r hr => hr) fun externalID hid => ?_
  refine .bind (.ofExcept fun r hr => hr) fun description hdescription => ?_
  refine .bind (.ofExcept fun r hr => hr) fun price hprice => ?_
  refine .bind (whenPresent_some (parseCategory_returns _ _)) fun categoryID hcategory => ?_
  refine .bind (whenPresent_some (.ofExcept fun r hr => hr)) fun imageID himage => returns_done.mpr ?_
  obtain ⟨hnone, -⟩ | ⟨v, t, hv, ht, rfl⟩ := exceptMapM_eq_ok hprice
  · cases hnone
  cases hv
  obtain ⟨u, -, ht⟩ := exceptBind_eq_ok ht
  cases ht
  obtain ⟨id, hparsed, rfl⟩ := hcategory
  obtain ⟨image, hparsed', rfl⟩ := himage
  exact ⟨checkedText_eq_ok (fun v => validateMenuName (trimSpace v)) hname,
    checkedText_eq_ok (fun v => validateExternalID (trimSpace v)) hid,
    checkedText_eq_ok validateDescription hdescription, ⟨cents, hcents, rfl⟩, rfl, ⟨id, hparsed, rfl⟩, image, hparsed',
    rfl⟩

theorem decodeCents_toInt {cents : ℤ} {n : Int64} (h : decodeCents cents = .ok n) : n.toInt = cents := by
  unfold decodeCents at h
  split_ifs at h with hrange
  cases h
  obtain ⟨hlow, hhigh⟩ := hrange
  have hmin : Int64.minValue.toInt = -2 ^ 63 := by decide
  have hmax : Int64.maxValue.toInt = 2 ^ 63 - 1 := by decide
  rw [hmin] at hlow
  rw [hmax] at hhigh
  exact Int64.toInt_ofInt_of_le (by omega) (by omega)

/-- An update changes nothing if each of the fields that it has is that of the row. -/
theorem MenuItemUpdate.apply_eq_self_iff {change : MenuItemUpdate} {m : MenuItemRow} : change.apply m = m ↔
    change.categoryID.getD m.categoryID = m.categoryID ∧
      (change.externalID.map nullIfEmpty).getD m.externalID = m.externalID ∧ change.name.getD m.name = m.name ∧
      (change.description.map nullIfEmpty).getD m.description = m.description ∧
      change.imageID.getD m.imageID = m.imageID ∧ change.priceCents.getD m.priceCents = m.priceCents ∧
      change.available.getD m.available = m.available := by
  cases m
  simp only [MenuItemUpdate.apply, MenuItemRow.mk.injEq, true_and, and_true]

/-- A column that may be `NULL` stays if the text comes back. -/
theorem nullIfEmpty_keeps_iff {breaks : List Char} {control : String → String} {column : Option String}
    (hempty : trimSpace (trimText (control "")) = "")
    (hkeeps : ∀ s, trimSpace (trimText (control s)) = s ↔ KeepsText breaks s) :
    nullIfEmpty (trimSpace (trimText (control (column.getD "")))) = column ↔ KeepsColumn breaks column := by
  cases column with
  | none =>
    rw [Option.getD_none, hempty]
    exact iff_of_true rfl ⟨by simp, (hkeeps "").mp hempty⟩
  | some s =>
    rw [Option.getD_some, nullIfEmpty]
    constructor
    · intro hsame
      split_ifs at hsame with hnone
      have hs : trimSpace (trimText (control s)) = s := Option.some.inj hsame
      refine ⟨fun hcolumn => hnone ?_, (hkeeps s).mp hs⟩
      rw [hs]
      exact Option.some.inj hcolumn
    · intro h
      have hs : trimSpace (trimText (control s)) = s := (hkeeps s).mpr h.text
      rw [hs, if_neg fun hnone => h.notEmpty (congrArg some hnone)]

/-- The text of an identifier, or nothing, is read as it is. -/
theorem parseOptionalUUID_string {field : String} {id : Option UUID}
    (hread : ∀ i ∈ id, rt.parseUUID i.string = some i) :
    parseOptionalUUID rt (id.map UUID.string) field = .ok id := by
  cases id with
  | none => rfl
  | some i =>
    unfold parseOptionalUUID
    simp only [Option.map_some, i.trimSpace_string, if_neg i.string_ne_empty, hread i rfl]

/-- The category that is sent is that of the dish if it is offered, and otherwise none. -/
theorem category_iff {label : String} {categories : List Choice} {category found : Option UUID}
    (hread : ∀ i ∈ category, rt.parseUUID i.string = some i)
    (hfound : parseOptionalUUID rt
      (if selected (⟨"", label⟩ :: categories) ((category.map UUID.string).getD "") = "" then none
        else some (selected (⟨"", label⟩ :: categories) ((category.map UUID.string).getD ""))) "category_id" =
          .ok found) :
    found = category ↔ ∀ id ∈ category, ∃ choice ∈ categories, choice.value = id.string := by
  cases category with
  | none =>
    have hempty : selected (⟨"", label⟩ :: categories) "" = "" := selected_of_mem ⟨_, List.mem_cons_self, rfl⟩
    rw [Option.map_none, Option.getD_none, hempty, if_pos rfl] at hfound
    cases hfound
    simp
  | some id =>
    rw [Option.map_some, Option.getD_some] at hfound
    have hoffered : (∃ choice ∈ ⟨"", label⟩ :: categories, choice.value = id.string) ↔
        ∃ choice ∈ categories, choice.value = id.string := by
      simp [id.string_ne_empty.symm]
    simp only [Option.mem_def, Option.some.injEq, forall_eq']
    by_cases hlisted : ∃ choice ∈ categories, choice.value = id.string
    · rw [selected_of_mem (hoffered.mpr hlisted), if_neg id.string_ne_empty] at hfound
      have hsame : parseOptionalUUID rt ((some id).map UUID.string) "category_id" = .ok (some id) :=
        parseOptionalUUID_string hread
      rw [Option.map_some, hfound] at hsame
      exact iff_of_true (Except.ok.inj hsame) hlisted
    · rw [selected_of_not_mem fun h => hlisted (hoffered.mp h), if_pos rfl] at hfound
      cases hfound
      exact iff_of_false (by simp) hlisted

/-- **An update with what the dialog sends changes no column if and only if the dialog keeps them.** -/
theorem DishRead.apply_eq_self_iff {change : MenuItemUpdate} (hshown : DishShown db row e.item)
    (hread : ReadsDish rt db row) (hsubmit : (openMenuItemEditor e).submit e.money = some payload)
    (hchange : DishRead rt payload change) : change.apply row = row ↔ KeepsRow e row := by
  obtain ⟨cents, hparse, rfl⟩ := Option.map_eq_some_iff.mp hsubmit
  unfold openMenuItemEditor at hparse hchange
  rw [hshown.priceCents, parseMoney_inputChars] at hparse
  obtain ⟨hname, hexternal, hdescription, ⟨price, hdecoded, hprice⟩, havailable, ⟨category, hcategory, hcategory'⟩,
    image, himage, himage'⟩ := hchange
  dsimp only at hname hexternal hdescription hdecoded hcategory himage havailable
  rw [hshown.name] at hname
  rw [hshown.externalID] at hexternal
  rw [hshown.description] at hdescription
  rw [hshown.categoryID] at hcategory
  rw [hshown.imageID, parseOptionalUUID_string hread.image] at himage
  rw [hshown.available] at havailable
  have hcents : price = row.priceCents ↔
      parseMoney (moneyInputValue row.priceCents.toInt e.money) e.money = some row.priceCents.toInt := by
    rw [hparse, Option.some.injEq, ← decodeCents_toInt hdecoded, Int64.toInt_inj]
  rw [MenuItemUpdate.apply_eq_self_iff, hname, hexternal, hdescription, hprice, havailable, hcategory', himage']
  simp only [Option.getD_some, Option.map_some]
  rw [inputValue_keeps_iff, nullIfEmpty_keeps_iff (by decide) fun s => inputValue_keeps_iff,
    nullIfEmpty_keeps_iff (by decide) fun s => textareaValue_keeps_iff, hcents, category_iff hread.category hcategory]
  constructor
  · rintro ⟨h₁, h₂, h₃, h₄, -, h₅, -⟩
    exact ⟨h₂, h₃, h₄, h₅, h₁⟩
  · rintro ⟨h₂, h₃, h₄, h₅, h₁⟩
    exact ⟨h₁, h₂, h₃, h₄, (Except.ok.inj himage).symm, h₅, trivial⟩

/-- An update changes more than who has saved the row, unless it changes no column. -/
theorem MenuItemRow.update_keeps_iff {actor : UUID} {now : Time} {f : MenuItemRow → MenuItemRow} {m : MenuItemRow}
    (hat : (f m).updatedAt = m.updatedAt) (hby : (f m).updatedBy = m.updatedBy) :
    (∃ by', m.update actor now f = { m with updatedBy := by' }) ↔ f m = m := by
  unfold MenuItemRow.update
  split_ifs with hsame
  · exact iff_of_true ⟨_, rfl⟩ hsame
  · refine iff_of_false ?_ hsame
    rintro ⟨by', hupdate⟩
    have hback : f m = { m with updatedAt := (f m).updatedAt, updatedBy := (f m).updatedBy } :=
      congrArg (fun r => { r with updatedAt := (f m).updatedAt, updatedBy := (f m).updatedBy }) hupdate
    rw [hat, hby] at hback
    exact hsame hback

/-- The row is the same if it is saved by the same account. -/
theorem MenuItemRow.update_eq_self_iff {actor : UUID} {now : Time} {f : MenuItemRow → MenuItemRow} {m : MenuItemRow}
    (hat : (f m).updatedAt = m.updatedAt) (hby : (f m).updatedBy = m.updatedBy) :
    m.update actor now f = m ↔ f m = m ∧ m.updatedBy = some actor := by
  constructor
  · intro hupdate
    have hsame : f m = m := (MenuItemRow.update_keeps_iff hat hby).mp ⟨m.updatedBy, hupdate⟩
    rw [MenuItemRow.update, if_pos hsame] at hupdate
    exact ⟨hsame, (congrArg MenuItemRow.updatedBy hupdate).symm⟩
  · rintro ⟨hsame, hactor⟩
    rw [MenuItemRow.update, if_pos hsame, ← hactor]

end Columns

/-! ## What becomes of the links -/

section Links

variable {rt : Runtime} {db : Db} {row : MenuItemRow} {e : DishEdit}

/-- The boxes that are ticked are those of the identifiers that the page shows and has boxes for. -/
theorem exists_ticked (entries : List String) {shown : List String} {stored : List UUID}
    (hshown : ∀ t, t ∈ shown ↔ ∃ id ∈ stored, id.string = t) (hread : ∀ id ∈ stored, rt.parseUUID id.string = some id) :
    ∃ ids : List UUID, checkboxGroup entries (fun t => shown.contains t) = ids.map UUID.string ∧
      ∀ id, id ∈ ids ↔ id ∈ stored ∧ id.string ∈ entries := by
  have hown : ∀ t ∈ checkboxGroup entries fun t => shown.contains t,
      ∃ id, (id ∈ stored ∧ id.string ∈ entries) ∧ t = id.string := by
    intro t ht
    obtain ⟨hentry, hticked⟩ := mem_checkboxGroup.mp ht
    obtain ⟨id, hid, rfl⟩ := (hshown t).mp (List.contains_iff_mem.mp hticked)
    exact ⟨id, ⟨hid, hentry⟩, rfl⟩
  obtain ⟨ids, htexts, hids⟩ := exists_map_string hown
  refine ⟨ids, htexts, fun id => ⟨hids id, fun ⟨hid, hentry⟩ => ?_⟩⟩
  have hticked : id.string ∈ ids.map UUID.string := by
    rw [← htexts, mem_checkboxGroup]
    exact ⟨hentry, List.contains_iff_mem.mpr ((hshown _).mpr ⟨id, hid, rfl⟩)⟩
  obtain ⟨id', hid', htext⟩ := List.mem_map.mp hticked
  -- two identifiers of the dish have one text only if they are the same
  have hparse := hread id' (hids id' hid').1
  rw [htext, hread id hid] at hparse
  rwa [Option.some.inj hparse]

end Links

end Doenerstag
