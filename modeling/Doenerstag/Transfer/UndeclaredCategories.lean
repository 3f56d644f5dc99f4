import Doenerstag.Db.Duplicates
import Doenerstag.Transfer.Import

/-!
# Items under categories that a document does not declare (`internal/transfer/insert.go`)

`insertItem` hands the category that an item names to the database, where it has to be one of the
restaurant's (migration 14). Everything else of an import is the same when no item names one.

* `insertItem_simulates` — an item under a category of the restaurant is written as it is without one.
* `HeadWritten` — what stands when the items come.
* `ImportedInFull` — the restaurant has all its items, under the categories that the document declares.
* `import_undeclared_iff` — **a document that can be imported without its headings is imported in full if
  and only if no item names a category that it does not declare.**
-/

namespace Doenerstag

namespace Transfer

open Loops Tables

/-! ## Without headings -/

def Item.uncategorised (item : Item) : Item := { item with category := "" }

def Restaurant.uncategorised (r : Restaurant) : Restaurant :=
  { r with items := r.items.map Item.uncategorised }

def unfiled (m : MenuItemRow) : MenuItemRow := { m with categoryID := none }

/-- The tables, with every dish taken out of its category -/
@[simps!] def unfile (db : Db) : Db := db.setMenuItems (db.menuItems.map unfiled)

/-- The category is one of the restaurant's. -/
def KnownIn (cats : List MenuCategoryRow) (restaurantID : UUID) (categoryID : Option UUID) : Prop :=
  ∀ id, categoryID = some id → ∃ c ∈ cats, c.restaurantID = restaurantID ∧ c.id = id

section Statements

variable {rt : Runtime} {db : Db} {row : MenuItemRow} {actor : UUID}

theorem unfile_menuItem (db : Db) (id : UUID) : (unfile db).menuItem id = (db.menuItem id).map unfiled := by
  unfold Db.menuItem
  rw [unfile_menuItems, List.find?_map]
  rfl

theorem unfile_nameTaken : (unfile db).menuItemNameTaken rt (unfiled row) = db.menuItemNameTaken rt row := by
  unfold Db.menuItemNameTaken
  rw [unfile_menuItems, List.any_map]
  rfl

theorem unfile_references (hknown : KnownIn db.menuCategories row.restaurantID row.categoryID) :
    (unfile db).knowsMenuItemReferences (unfiled row) = db.knowsMenuItemReferences row := by
  have hcategory : row.categoryID.all (fun id =>
      db.menuCategories.any fun c => c.restaurantID == row.restaurantID && c.id == id) = true := by
    cases hid : row.categoryID with
    | none => rfl
    | some id =>
      obtain ⟨c, hc, hrestaurant, hcid⟩ := hknown id hid
      exact List.any_eq_true.mpr ⟨c, hc, by simp [hrestaurant, hcid]⟩
  unfold Db.knowsMenuItemReferences
  rw [hcategory, Bool.and_true]
  show (db.restaurants.any _ && true && _ && _) = _
  rw [Bool.and_true]
  rfl

/-- The row of an item is written as it is without a category. -/
theorem insertMenuItem_unfile (hknown : KnownIn db.menuCategories row.restaurantID row.categoryID) :
    ((Db.insertMenuItem rt row db).map Prod.fst).map unfile =
      (Db.insertMenuItem rt (unfiled row) (unfile db)).map Prod.fst := by
  have hrow : (unfile db).setMenuItems ((unfile db).menuItems ++ [unfiled row]) =
      unfile (db.setMenuItems (db.menuItems ++ [row])) := by
    unfold unfile
    rw [Db.setMenuItems_menuItems, Db.setMenuItems_menuItems, List.map_append]
    rfl
  unfold Db.insertMenuItem Db.checkMenuItem
  rw [unfile_nameTaken, unfile_references hknown, hrow]
  rw [show (unfile db).menuItem (unfiled row).id = (db.menuItem row.id).map unfiled from unfile_menuItem db _,
    Option.isSome_map]
  show _ = Except.map Prod.fst (if (db.menuItem row.id).isSome then _ else Except.map _
    (if ¬ row.Check ∨ ¬ row.externalID.all externalIDShape then _
    else if (row.deletedAt.isNone && db.menuItemNameTaken rt row) = true then _
    else if (!db.knowsMenuItemReferences row) = true then _ else _))
  split_ifs <;> rfl

theorem insertModification_unfile (row : MenuItemModificationRow) :
    (Db.insertModification rt row actor db).map unfile = Db.insertModification rt row actor (unfile db) := by
  unfold Db.insertModification
  rw [unfile_menuItem, Option.isNone_map]
  show _ = (if row.name.length < 1 || 200 < row.name.length then _
    else if (db.menuItemModifications.any _ || db.menuItemModifications.any _) = true then _
    else if ((db.menuItem row.menuItemID).isNone || (db.userByID actor).isNone) = true then _ else _)
  split_ifs <;> rfl

theorem insertLink_unfile (c : Classification) (row : MenuItemLinkRow) :
    (insertLink c row actor db).map unfile = insertLink c row actor (unfile db) := by
  have hlinks : c.links (unfile db) = c.links db := by cases c <;> rfl
  have hknown : c.known (unfile db) row.targetID = c.known db row.targetID := by cases c <;> rfl
  have hset : ∀ rows, c.setLinks (unfile db) rows = unfile (c.setLinks db rows) := by
    intro rows
    cases c <;> rfl
  unfold insertLink
  rw [hlinks, hknown, hset, unfile_menuItem, Option.isNone_map]
  show _ = (if (c.links db).contains row = true then _
    else if ((db.menuItem row.menuItemID).isNone || !c.known db row.targetID ||
      (db.userByID actor).isNone) = true then _ else _)
  split_ifs <;> rfl

/-! ## What the statements leave alone -/

/-- The restaurants and their menus, but for what is on a dish, stand as they stood. -/
structure SameMenu (db db' : Db) : Prop where
  restaurants : db'.restaurants = db.restaurants
  menuCategories : db'.menuCategories = db.menuCategories
  menuItems : db'.menuItems = db.menuItems

theorem SameMenu.refl (db : Db) : SameMenu db db := ⟨rfl, rfl, rfl⟩

theorem SameMenu.trans {db₁ db₂ db₃ : Db} (h : SameMenu db₁ db₂) (h' : SameMenu db₂ db₃) : SameMenu db₁ db₃ where
  restaurants := h'.restaurants.trans h.restaurants
  menuCategories := h'.menuCategories.trans h.menuCategories
  menuItems := h'.menuItems.trans h.menuItems

variable {db' : Db}

theorem insertModification_same {row : MenuItemModificationRow}
    (h : Db.insertModification rt row actor db = .ok db') : SameMenu db db' := by
  unfold Db.insertModification at h
  split_ifs at h
  cases h
  exact ⟨rfl, rfl, rfl⟩

theorem insertLink_same {c : Classification} {row : MenuItemLinkRow} (h : insertLink c row actor db = .ok db') :
    SameMenu db db' := by
  unfold insertLink at h
  split_ifs at h
  cases h
  cases c <;> exact ⟨rfl, rfl, rfl⟩

theorem insertOpeningHours_same {id hoursID : UUID} {p : Model.OpeningPeriod}
    (h : db.insertOpeningHours id actor hoursID p = .ok db') : SameMenu db db' := by
  unfold Db.insertOpeningHours at h
  split at h
  · split_ifs at h
    cases h
    exact ⟨rfl, rfl, rfl⟩
  · cases h

theorem insertContact_same {imp : Importer} {typeID : UUID} {c : Contact} {row : RestaurantContactRow}
    (h : imp.insertContact typeID c row db = .ok db') : SameMenu db db' := by
  obtain ⟨_, -, h⟩ := bind_eq_ok h
  split_ifs at h
  cases h
  exact ⟨rfl, rfl, rfl⟩

theorem writing_eq_ok {part : Part} {r : Except PgError Db} (h : writing part r = .ok db) : r = .ok db := by
  cases r with
  | error e => cases h
  | ok _ =>
    cases h
    rfl

end Statements

/-! ## An item -/

variable {imp : Importer} {codes : CodeTables} {restaurantID itemID : UUID} {categoryID : Option UUID}
  {item : Item} {db db' : Db}

theorem insertModifications_same (h : imp.insertModifications itemID item db = .ok db') : SameMenu db db' := by
  refine each_keeps (I := SameMenu db) (fun k m s s' _ hs hstep => ?_) (SameMenu.refl db) h
  obtain ⟨sortOrder, -, hinsert⟩ := bind_eq_ok (writing_eq_ok hstep)
  exact hs.trans (insertModification_same hinsert)

theorem insertItemLinks_same {c : Classification} (h : imp.insertItemLinks codes itemID item c db = .ok db') :
    SameMenu db db' := by
  refine each_keeps (I := SameMenu db) (fun k code s s' _ hs hstep => ?_) (SameMenu.refl db) h
  exact hs.trans (insertLink_same (writing_eq_ok hstep))

/-- An insert that was accepted names a category of the restaurant, or none. -/
theorem insertMenuItem_known {row : MenuItemRow} {r : Db × Option MenuItem}
    (h : Db.insertMenuItem imp.rt row db = .ok r) : KnownIn db.menuCategories row.restaurantID row.categoryID := by
  intro id hid
  unfold Db.insertMenuItem Db.checkMenuItem at h
  split_ifs at h with _ _ _ hknown
  · cases h
  · cases h
  · cases h
  · simp only [Db.knowsMenuItemReferences, hid, Bool.not_eq_true', Bool.not_eq_false, Bool.and_eq_true,
      Option.all_some, List.any_eq_true, beq_iff_eq] at hknown
    exact hknown.1.1.2

/-- What `insertItem` has done: the row of the item is there, and nothing else of the menus is new. -/
theorem insertItem_written (h : imp.insertItem codes restaurantID item db = .ok db') :
    ∃ itemID categoryID, imp.rt.parseUUID item.id = some itemID ∧ imp.categoryOf item = .ok categoryID ∧
      KnownIn db.menuCategories restaurantID categoryID ∧
      SameMenu (db.setMenuItems (db.menuItems ++ [imp.itemRow restaurantID itemID categoryID item])) db' := by
  unfold Importer.insertItem at h
  cases hid : imp.rt.parseUUID item.id with
  | none =>
    rw [hid] at h
    cases h
  | some itemID =>
    rw [hid] at h
    obtain ⟨categoryID, hcategory, h⟩ := bind_eq_ok h
    obtain ⟨db₁, hrow, h⟩ := bind_eq_ok h
    obtain ⟨db₂, hmodifications, h⟩ := bind_eq_ok h
    obtain ⟨db₃, htags, h⟩ := bind_eq_ok h
    obtain ⟨db₄, hallergens, hadditives⟩ := bind_eq_ok h
    have hrow := writing_eq_ok hrow
    cases hinsert : Db.insertMenuItem imp.rt (imp.itemRow restaurantID itemID categoryID item) db with
    | error e =>
      rw [hinsert] at hrow
      cases hrow
    | ok r =>
      rw [hinsert] at hrow
      cases hrow
      rw [(Db.insertMenuItem_eq_ok hinsert).1] at hmodifications
      exact ⟨itemID, categoryID, rfl, hcategory, insertMenuItem_known hinsert,
        (insertModifications_same hmodifications).trans ((insertItemLinks_same htags).trans
          ((insertItemLinks_same hallergens).trans (insertItemLinks_same hadditives)))⟩

/-! ## An item beside itself without a heading -/

variable {cats : List MenuCategoryRow}

theorem insertModifications_simulates : Simulates (fun db => db.menuCategories = cats) unfile
    (imp.insertModifications itemID item) (imp.insertModifications itemID item.uncategorised) := by
  refine Simulates.each_same (fun k m _ => Simulates.mapError ?_ _) 0
  cases int4 m.sortOrder with
  | error e => exact Simulates.fail e
  | ok sortOrder =>
    exact ⟨fun s s' hcats h => (insertModification_same h).menuCategories.trans hcats,
      fun s _ => insertModification_unfile _⟩

theorem insertItemLinks_simulates (c : Classification) : Simulates (fun db => db.menuCategories = cats) unfile
    (imp.insertItemLinks codes itemID item c) (imp.insertItemLinks codes itemID item.uncategorised c) := by
  have hcodes : item.uncategorised.codes c = item.codes c := by cases c <;> rfl
  unfold Importer.insertItemLinks
  rw [hcodes]
  exact Simulates.each_same (fun _ code _ => Simulates.mapError
    ⟨fun s s' hcats h => (insertLink_same h).menuCategories.trans hcats, fun s _ => insertLink_unfile c _⟩ _) 0

theorem insertItemRow_simulates (hknown : KnownIn cats restaurantID categoryID) :
    Simulates (fun db => db.menuCategories = cats) unfile
      (fun db => (Db.insertMenuItem imp.rt (imp.itemRow restaurantID itemID categoryID item) db).map Prod.fst)
      fun db =>
        (Db.insertMenuItem imp.rt (imp.itemRow restaurantID itemID none item.uncategorised) db).map Prod.fst where
  keeps := by
    intro s s' hcats h
    cases hinsert : Db.insertMenuItem imp.rt (imp.itemRow restaurantID itemID categoryID item) s with
    | error e =>
      rw [hinsert] at h
      cases h
    | ok r =>
      rw [hinsert] at h
      cases h
      rw [(Db.insertMenuItem_eq_ok hinsert).1]
      exact hcats
  commutes := by
    intro s hcats
    exact insertMenuItem_unfile (by rw [hcats]; exact hknown)

/-- **An item is written as it is without a heading**, if it has none or one of the restaurant's. -/
theorem insertItem_simulates (hcategory : imp.categoryOf item = .ok categoryID)
    (hknown : KnownIn cats restaurantID categoryID) :
    Simulates (fun db => db.menuCategories = cats) unfile (imp.insertItem codes restaurantID item)
      (imp.insertItem codes restaurantID item.uncategorised) := by
  have hid : imp.rt.parseUUID item.uncategorised.id = imp.rt.parseUUID item.id := rfl
  unfold Importer.insertItem
  rw [hid]
  cases imp.rt.parseUUID item.id with
  | none => exact Simulates.fail _
  | some itemID =>
    dsimp only
    rw [hcategory]
    show Simulates _ _ (fun db => imp.writeItem codes restaurantID itemID categoryID item db)
      fun db => imp.writeItem codes restaurantID itemID none item.uncategorised db
    exact ((insertItemRow_simulates hknown).mapError _).bind (insertModifications_simulates.bind
      ((insertItemLinks_simulates .tag).bind ((insertItemLinks_simulates .allergen).bind
        (insertItemLinks_simulates .additive))))

/-! ## The whole document -/

namespace Importer

/-- The document declares the category. -/
def declares (imp : Importer) (r : Restaurant) (id : UUID) : Bool :=
  r.categories.any fun c => imp.rt.parseUUID c.id == some id

/-- The category that an item of the document belongs into: the one it names, if the document declares it -/
def heading (imp : Importer) (r : Restaurant) (item : Item) : Option UUID :=
  if item.category = "" then none else (imp.rt.parseUUID item.category).filter (imp.declares r)

/-- The item names a category, and the document does not declare it. -/
def NamesUndeclared (imp : Importer) (r : Restaurant) (item : Item) : Prop :=
  item.category ≠ "" ∧ ∃ id, imp.rt.parseUUID item.category = some id ∧ imp.declares r id = false

/-- The import succeeds: the restaurant is there, and its dishes are the items of the document, each under
its heading. -/
def ImportedInFull (imp : Importer) (r : Restaurant) (db : Db) : Prop :=
  ∃ id db', imp.rt.parseUUID r.id = some id ∧ imp.importRestaurant r db = .ok db' ∧
    (∃ row ∈ db'.restaurants, row.id = id ∧ row.name = r.name ∧ row.deletedAt = none) ∧
    List.Forall₂ (fun item row => ∃ itemID, imp.rt.parseUUID item.id = some itemID ∧
      row = imp.itemRow id itemID (imp.heading r item) item)
      r.items (db'.menuItems.filter fun m => m.restaurantID == id)

end Importer

variable {r : Restaurant} {id : UUID}

theorem insertCategory_written {category : Category} (h : imp.insertCategory id category db = .ok db') :
    ∃ row : MenuCategoryRow, (imp.rt.parseUUID category.id = some row.id ∧ row.restaurantID = id) ∧
      db' = db.setMenuCategories (db.menuCategories ++ [row]) := by
  unfold Importer.insertCategory at h
  cases hid : imp.rt.parseUUID category.id with
  | none =>
    rw [hid] at h
    cases h
  | some categoryID =>
    rw [hid] at h
    obtain ⟨sortOrder, -, hinsert⟩ := bind_eq_ok (writing_eq_ok h)
    exact ⟨_, ⟨rfl, rfl⟩, (Db.insertCategory_eq_ok hinsert).1⟩

/-- What stands when the items come: the restaurant, and the categories that the document declares. -/
structure HeadWritten (imp : Importer) (id : UUID) (r : Restaurant) (db db' : Db) : Prop where
  restaurant : ∃ row ∈ db'.restaurants, row.id = id ∧ row.name = r.name ∧ row.deletedAt = none
  menuItems : db'.menuItems = db.menuItems
  menuCategories : ∃ cats : List MenuCategoryRow, db'.menuCategories = db.menuCategories ++ cats ∧
    List.Forall₂ (fun c row => imp.rt.parseUUID c.id = some row.id ∧ row.restaurantID = id) r.categories cats

theorem insertHead_written (h : imp.insertHead codes id r db = .ok db') : HeadWritten imp id r db db' := by
  obtain ⟨db₁, hrow, h⟩ := bind_eq_ok h
  obtain ⟨db₂, hcontacts, h⟩ := bind_eq_ok h
  obtain ⟨db₃, hhours, hcategories⟩ := bind_eq_ok h
  have hrow := writing_eq_ok hrow
  unfold insertRestaurantRow at hrow
  split_ifs at hrow
  have hsame : SameMenu db₁ db₃ := by
    have hfirst : SameMenu db₁ db₂ := by
      exact each_keeps (I := SameMenu db₁) (fun k c s s' _ hs hstep =>
        hs.trans (insertContact_same (writing_eq_ok hstep))) (SameMenu.refl db₁) hcontacts
    have hsecond : SameMenu db₂ db₃ := by
      exact each_keeps (I := SameMenu db₂) (fun k p s s' _ hs hstep =>
        hs.trans (insertOpeningHours_same (writing_eq_ok hstep))) (SameMenu.refl db₂) hhours
    exact hfirst.trans hsecond
  have hothers : db'.restaurants = db₃.restaurants ∧ db'.menuItems = db₃.menuItems := by
    refine each_keeps (I := fun s => s.restaurants = db₃.restaurants ∧ s.menuItems = db₃.menuItems)
      (fun k c s s' _ hs hstep => ?_) ⟨rfl, rfl⟩ hcategories
    obtain ⟨row, -, rfl⟩ := insertCategory_written hstep
    exact hs
  obtain ⟨cats, hcats, happended⟩ := each_appends Db.menuCategories
    (R := fun c row => imp.rt.parseUUID c.id = some row.id ∧ row.restaurantID = id)
    (fun k c s s' _ hstep => by
      obtain ⟨row, hrow, rfl⟩ := insertCategory_written hstep
      exact ⟨row, hrow, rfl⟩) hcategories
  cases hrow
  refine ⟨?_, ?_, cats, ?_, hcats⟩
  · rw [hothers.1, hsame.restaurants]
    exact ⟨_, List.mem_append_right _ List.mem_cons_self, rfl, rfl, rfl⟩
  · rw [hothers.2, hsame.menuItems]
    rfl
  · rw [happended, hsame.menuCategories]
    rfl

/-- There is room for the restaurant: nothing of it is left. -/
theorem makeRoom_clear (hvalid : db.Valid) (h : imp.makeRoom id db = .ok db') :
    (∀ c ∈ db'.menuCategories, c.restaurantID ≠ id) ∧ ∀ m ∈ db'.menuItems, m.restaurantID ≠ id := by
  have hgone : db'.Valid ∧ ∀ row ∈ db'.restaurants, row.id ≠ id := by
    unfold Importer.makeRoom at h
    split_ifs at h with hthere hoverwrite
    · cases hdelete : hardDeleteRestaurant id imp.now db with
      | error e =>
        rw [hdelete] at h
        cases h
      | ok _ =>
        rw [hdelete] at h
        cases h
        refine ⟨(hvalid.deleteFoodOrders _).deleteRestaurants hdelete, fun row hrow hid => ?_⟩
        unfold hardDeleteRestaurant Db.deleteRestaurants at hdelete
        dsimp only at hdelete
        split_ifs at hdelete
        cases hdelete
        have hkept := (mem_keep.mp hrow).2
        rw [hid, beq_self_eq_true] at hkept
        cases hkept
    · cases h
      refine ⟨hvalid, fun row hrow hid => hthere ?_⟩
      exact List.any_eq_true.mpr ⟨row, hrow, beq_iff_eq.mpr hid⟩
  obtain ⟨hvalid', hnone⟩ := hgone
  refine ⟨fun c hc hid => ?_, fun m hm hid => ?_⟩
  · obtain ⟨row, hrow, hkey⟩ := hvalid'.refs.categoryRestaurant c hc c.restaurantID rfl
    exact hnone row hrow (hkey.trans hid)
  · obtain ⟨row, hrow, hkey⟩ := hvalid'.refs.menuItemRestaurant m hm m.restaurantID rfl
    exact hnone row hrow (hkey.trans hid)

/-- The categories of the restaurant are those that the document declares. -/
theorem HeadWritten.known_iff {cat : UUID} (h : HeadWritten imp id r db db')
    (hclear : ∀ c ∈ db.menuCategories, c.restaurantID ≠ id) :
    KnownIn db'.menuCategories id (some cat) ↔ imp.declares r cat = true := by
  obtain ⟨cats, happended, hcats⟩ := h.menuCategories
  constructor
  · intro hknown
    obtain ⟨row, hrow, hrestaurant, rfl⟩ := hknown cat rfl
    rw [happended] at hrow
    rcases List.mem_append.mp hrow with hold | hnew
    · exact absurd hrestaurant (hclear row hold)
    · obtain ⟨c, hc, hparsed, -⟩ := exists_of_mem (List.Forall₂.flip (R := flip fun c row => _) hcats) hnew
      exact List.any_eq_true.mpr ⟨c, hc, by simp [hparsed]⟩
  · intro hdeclared id' hid'
    cases hid'
    obtain ⟨c, hc, hparsed⟩ := List.any_eq_true.mp hdeclared
    obtain ⟨row, hrow, hid, hrestaurant⟩ := exists_of_mem hcats hc
    rw [happended]
    refine ⟨row, List.mem_append_right _ hrow, hrestaurant, ?_⟩
    rw [beq_iff_eq, hid] at hparsed
    exact Option.some.inj hparsed

/-! ## The import, step by step -/

theorem importRestaurant_eq_ok : imp.importRestaurant r db = .ok db' ↔ ∃ id db₁ db₂,
    imp.rt.parseUUID r.id = some id ∧ imp.makeRoom id db = .ok db₁ ∧
      imp.check (imp.loadCodes db₁) r = .ok () ∧ imp.insertHead (imp.loadCodes db₁) id r db₁ = .ok db₂ ∧
      imp.insertItems (imp.loadCodes db₁) id r.items db₂ = .ok db' := by
  unfold Importer.importRestaurant
  constructor
  · intro h
    cases hid : imp.rt.parseUUID r.id with
    | none =>
      rw [hid] at h
      cases h
    | some id =>
      rw [hid] at h
      obtain ⟨db₁, hroom, h⟩ := bind_eq_ok h
      obtain ⟨⟨⟩, hcheck, h⟩ := bind_eq_ok h
      obtain ⟨db₂, hhead, hitems⟩ := bind_eq_ok h
      exact ⟨id, db₁, db₂, rfl, hroom, hcheck, hhead, hitems⟩
  · rintro ⟨id, db₁, db₂, hid, hroom, hcheck, hhead, hitems⟩
    rw [hid]
    show (imp.makeRoom id db).bind _ = _
    rw [hroom]
    show (imp.check (imp.loadCodes db₁) r).bind _ = _
    rw [hcheck]
    show (imp.insertHead (imp.loadCodes db₁) id r db₁).bind _ = _
    rw [hhead]
    exact hitems

/-- The codes of a document have nothing to do with its headings. -/
theorem check_uncategorised : imp.check codes r.uncategorised = imp.check codes r := by
  have hproblems : imp.problems codes r.uncategorised = imp.problems codes r := by
    show _ ++ _ ++ (r.items.map Item.uncategorised).flatMap _ = _
    rw [List.flatMap_map]
    rfl
  unfold Importer.check
  rw [hproblems]

theorem heading_declared {cat : UUID} (h : imp.heading r item = some cat) : imp.declares r cat = true := by
  unfold Importer.heading at h
  split_ifs at h
  exact (Option.filter_eq_some_iff.mp h).2

/-- An item that names nothing undeclared is put under its heading. -/
theorem categoryOf_eq_heading (huuid : item.category ≠ "" → (imp.rt.parseUUID item.category).isSome)
    (hdeclared : ¬ imp.NamesUndeclared r item) : imp.categoryOf item = .ok (imp.heading r item) := by
  unfold Importer.categoryOf Importer.heading
  by_cases hnone : item.category = ""
  · rw [if_pos hnone, if_pos hnone]
  · rw [if_neg hnone, if_neg hnone]
    obtain ⟨cat, hcat⟩ := Option.isSome_iff_exists.mp (huuid hnone)
    have hcat' : imp.declares r cat = true := by
      cases hd : imp.declares r cat with
      | true => rfl
      | false => exact absurd ⟨hnone, cat, hcat, hd⟩ hdeclared
    rw [hcat, Option.filter_some, if_pos hcat']

/-- An item that was written names a declared category, or none. -/
theorem not_namesUndeclared {db₁ db₂ : Db} (hhead : HeadWritten imp id r db₁ db₂)
    (hclear : ∀ c ∈ db₁.menuCategories, c.restaurantID ≠ id) (hitems : imp.insertItems codes id r.items db₂ = .ok db')
    (hitem : item ∈ r.items) : ¬ imp.NamesUndeclared r item := by
  rintro ⟨hnone, cat, hcat, hundeclared⟩
  obtain ⟨_, s, s', hs, hstep⟩ := each_mem (I := fun s => s.menuCategories = db₂.menuCategories)
    (fun k a s s' _ hs hstep => by
      obtain ⟨_, _, -, -, -, hsame⟩ := insertItem_written hstep
      exact hsame.menuCategories.trans hs) rfl hitems hitem
  obtain ⟨_, categoryID, -, hcategory, hknown, -⟩ := insertItem_written hstep
  unfold Importer.categoryOf at hcategory
  rw [if_neg hnone, hcat] at hcategory
  obtain rfl := Except.ok.inj hcategory
  rw [hs, hhead.known_iff hclear, hundeclared] at hknown
  cases hknown

/-- Items that name nothing undeclared are written, if they are without their headings. -/
theorem insertItems_of_plain {db₁ db₂ db₃ : Db} (hhead : HeadWritten imp id r db₁ db₂)
    (hclear : ∀ c ∈ db₁.menuCategories, c.restaurantID ≠ id)
    (hcategories : ∀ item ∈ r.items, imp.categoryOf item = .ok (imp.heading r item))
    (hplain : imp.insertItems codes id (r.items.map Item.uncategorised) db₂ = .ok db₃) :
    ∃ db', imp.insertItems codes id r.items db₂ = .ok db' := by
  have hheaded : (imp.insertItems codes id r.items db₂).map unfile =
      imp.insertItems codes id (r.items.map Item.uncategorised) (unfile db₂) := by
    refine (Simulates.each (I := fun s => s.menuCategories = db₂.menuCategories)
      (fun _ item hitem => insertItem_simulates (hcategories item hitem) ?_) 0).commutes db₂ rfl
    intro cat hcat
    exact (hhead.known_iff hclear).mpr (heading_declared hcat) cat rfl
  -- without its headings, the menu is written into the same tables with and without theirs
  have hunheaded : (imp.insertItems codes id (r.items.map Item.uncategorised) db₂).map unfile =
      imp.insertItems codes id (r.items.map Item.uncategorised) (unfile db₂) := by
    refine (Simulates.each_same (I := fun s => s.menuCategories = db₂.menuCategories) (fun _ item hitem => ?_)
      0).commutes db₂ rfl
    obtain ⟨original, -, rfl⟩ := List.mem_map.mp hitem
    have hnone : imp.categoryOf original.uncategorised = .ok none := rfl
    exact insertItem_simulates hnone (by intro cat hcat; cases hcat)
  rw [← hunheaded, hplain] at hheaded
  cases hitems : imp.insertItems codes id r.items db₂ with
  | ok db' => exact ⟨db', rfl⟩
  | error e =>
    rw [hitems] at hheaded
    cases hheaded

/-- The dishes of the restaurant are the items, each under its heading. -/
theorem insertItems_rows {db₂ : Db} (hclear : ∀ m ∈ db₂.menuItems, m.restaurantID ≠ id)
    (hcategories : ∀ item ∈ r.items, imp.categoryOf item = .ok (imp.heading r item))
    (hitems : imp.insertItems codes id r.items db₂ = .ok db') :
    db'.restaurants = db₂.restaurants ∧
      List.Forall₂ (fun item row => ∃ itemID, imp.rt.parseUUID item.id = some itemID ∧
        row = imp.itemRow id itemID (imp.heading r item) item)
        r.items (db'.menuItems.filter fun m => m.restaurantID == id) := by
  have hrestaurants : db'.restaurants = db₂.restaurants := by
    refine each_keeps (I := fun s => s.restaurants = db₂.restaurants) (fun k item s s' _ hs hstep => ?_) rfl hitems
    obtain ⟨_, _, -, -, -, hsame⟩ := insertItem_written hstep
    exact hsame.restaurants.trans hs
  obtain ⟨rows, hrows, happended⟩ := each_appends Db.menuItems
    (R := fun item row => ∃ itemID, imp.rt.parseUUID item.id = some itemID ∧
      row = imp.itemRow id itemID (imp.heading r item) item)
    (fun k item s s' hitem hstep => by
      obtain ⟨itemID, categoryID, hid, hcategory, -, hsame⟩ := insertItem_written hstep
      rw [hcategories item hitem] at hcategory
      obtain rfl := Except.ok.inj hcategory
      exact ⟨_, ⟨itemID, hid, rfl⟩, hsame.menuItems⟩) hitems
  have hmine : ∀ row ∈ rows, (row.restaurantID == id) = true := by
    intro row hrow
    obtain ⟨_, -, _, -, rfl⟩ := exists_of_mem (List.Forall₂.flip (R := flip fun item row => _) hrows) hrow
    exact beq_self_eq_true id
  have hothers : db₂.menuItems.filter (fun m => m.restaurantID == id) = [] := by
    rw [List.filter_eq_nil_iff]
    intro m hm hid
    exact hclear m hm (beq_iff_eq.mp hid)
  refine ⟨hrestaurants, ?_⟩
  rw [happended, List.filter_append, hothers, List.nil_append, List.filter_eq_self.mpr hmine]
  exact hrows

theorem not_importedInFull {e : ImportError} (h : (imp.importRestaurant r db).map (fun _ => ()) = .error e) :
    ¬ imp.ImportedInFull r db := by
  rintro ⟨_, db', -, himport, -, -⟩
  rw [himport] at h
  cases h

/-- **A document that can be imported without its headings is imported in full if and only if no item names a
category that it does not declare.** One that does is refused by the foreign key, and the restaurant with it. -/
theorem import_undeclared_iff (imp : Importer) (r : Restaurant) (db : Db) (hvalid : db.Valid)
    (hplain : ∃ db', imp.importRestaurant r.uncategorised db = .ok db')
    (huuids : ∀ item ∈ r.items, item.category ≠ "" → (imp.rt.parseUUID item.category).isSome) :
    imp.ImportedInFull r db ↔ ∀ item ∈ r.items, ¬ imp.NamesUndeclared r item := by
  constructor
  · rintro ⟨-, db', -, himport, -, -⟩ item hitem
    obtain ⟨id, db₁, db₂, -, hroom, -, hhead, hitems⟩ := importRestaurant_eq_ok.mp himport
    exact not_namesUndeclared (insertHead_written hhead) (makeRoom_clear hvalid hroom).1 hitems hitem
  · intro hdeclared
    obtain ⟨plain, hplain⟩ := hplain
    obtain ⟨id, db₁, db₂, hid, hroom, hcheck, hhead, hitems⟩ := importRestaurant_eq_ok.mp hplain
    rw [check_uncategorised] at hcheck
    obtain ⟨hcategories, hmenuItems⟩ := makeRoom_clear hvalid hroom
    have hwritten : HeadWritten imp id r db₁ db₂ := insertHead_written hhead
    have hheadings : ∀ item ∈ r.items, imp.categoryOf item = .ok (imp.heading r item) :=
      fun item hitem => categoryOf_eq_heading (huuids item hitem) (hdeclared item hitem)
    obtain ⟨db', hfull⟩ := insertItems_of_plain hwritten hcategories hheadings hitems
    obtain ⟨hrestaurants, hrows⟩ := insertItems_rows (hwritten.menuItems ▸ hmenuItems) hheadings hfull
    refine ⟨id, db', hid, importRestaurant_eq_ok.mpr ⟨id, db₁, db₂, hid, hroom, hcheck, hhead, hfull⟩, ?_, hrows⟩
    rw [hrestaurants]
    exact hwritten.restaurant

/-! ## A pizzeria under another's heading -/

def importingAnna : Importer where
  rt := .ascii
  toUpper := fun s => String.ofList (s.toList.map Char.toUpper)
  contactTypes := []
  actor := ⟨1⟩
  overwrite := false
  now := 0
  freshContact := fun k => ⟨100 + k⟩
  freshHours := fun k => ⟨200 + k⟩
  freshModification := fun id k => ⟨id.n * 1000 + k⟩

/-- A document with one category, and a dish that names `category` -/
def pizzeria (category : String) : Restaurant where
  id := "00000000-0000-0000-0000-000000000010"
  name := "Pizzeria"
  currency := "eur"
  minOrderValueCents := none
  deliveryFeeCents := none
  contacts := []
  openingHours := []
  categories := [{ id := "00000000-0000-0000-0000-000000000011", name := "Pizza", sortOrder := 1 }]
  items := [
    { id := "00000000-0000-0000-0000-000000000012", category, externalID := "", name := "Margherita"
      description := "", priceCents := 800, available := true, tags := [], allergens := [], additives := []
      modifications := [{ name := "Mozzarella", priceDeltaCents := 150, sortOrder := 0 }] },
    { id := "00000000-0000-0000-0000-000000000013", category := "", externalID := "", name := "Water"
      description := "", priceCents := 200, available := true, tags := [], allergens := [], additives := []
      modifications := [] }]

theorem pizzeria_plain (category : String) :
    ∃ db', importingAnna.importRestaurant (pizzeria category).uncategorised lunch = .ok db' := by
  have hsame : (pizzeria category).uncategorised = (pizzeria "").uncategorised := rfl
  have hok : (importingAnna.importRestaurant (pizzeria "").uncategorised lunch).isOk = true := by decide +kernel
  rw [hsame]
  exact exists_of_isOk hok

/-- Under the heading that the document declares, the menu arrives. -/
theorem import_undeclared_pizzeria :
    importingAnna.ImportedInFull (pizzeria "00000000-0000-0000-0000-000000000011") lunch := by
  refine (import_undeclared_iff importingAnna _ lunch lunch_valid (pizzeria_plain _) (by decide +kernel)).mpr ?_
  have hdeclared : ∀ item ∈ (pizzeria "00000000-0000-0000-0000-000000000011").items, item.category ≠ "" →
      (importingAnna.rt.parseUUID item.category).all (importingAnna.declares (pizzeria
        "00000000-0000-0000-0000-000000000011")) = true := by
    decide +kernel
  rintro item hitem ⟨hnone, cat, hcat, hundeclared⟩
  have hall := hdeclared item hitem hnone
  rw [hcat, Option.all_some, hundeclared] at hall
  cases hall

/-- Under any other, the whole restaurant is refused. -/
theorem import_undeclared_refused :
    lunch.Valid ∧
      (∃ db', importingAnna.importRestaurant (pizzeria
        "00000000-0000-0000-0000-000000000099").uncategorised lunch = .ok db') ∧
      (∀ item ∈ (pizzeria "00000000-0000-0000-0000-000000000099").items, item.category ≠ "" →
        (importingAnna.rt.parseUUID item.category).isSome) ∧
      (importingAnna.importRestaurant (pizzeria "00000000-0000-0000-0000-000000000099") lunch).map (fun _ => ()) =
        .error (.writing (.item "Margherita") .foreignKeyViolation) ∧
      ¬ importingAnna.ImportedInFull (pizzeria "00000000-0000-0000-0000-000000000099") lunch := by
  have hrefused : (importingAnna.importRestaurant (pizzeria
      "00000000-0000-0000-0000-000000000099") lunch).map (fun _ => ()) =
        .error (.writing (.item "Margherita") .foreignKeyViolation) := by
    decide +kernel
  exact ⟨lunch_valid, pizzeria_plain _, by decide +kernel, hrefused, not_importedInFull hrefused⟩

end Transfer

end Doenerstag
