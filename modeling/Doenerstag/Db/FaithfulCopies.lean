import Doenerstag.Db.MenuCopy

/-!
# Faithful copies of menu items

What the rows of a menu are to be like once some of its items have been copied.

* `FaithfulItem` — a row has the columns, the links and the living modifications of another.
* `MenuKept` — every row that was there is there as it was, and nothing new hangs off an old item.
* `Db.addCopy` — the tables with one more copy.
* `CopiedAll` — copies added one after the other, each read where the one before it left the tables.
* `CopiedAll.faithful` — **they are one faithful copy for each of the items.**
* `CopiedAll.names` — **no two of them have the same name, nor has a living item of their restaurant.**
-/

namespace Doenerstag

open ReadCommitted Prog

/-! ## What a copy is to be -/

/-- What a modification says -/
def MenuItemModificationRow.content (m : MenuItemModificationRow) : String × Int64 × Int64 :=
  (m.name, m.priceDeltaCents, m.sortOrder)

/-- The modifications of an item, the deleted ones too -/
def Db.everyModificationOf (db : Db) (itemID : UUID) : List MenuItemModificationRow :=
  db.menuItemModifications.filter fun m => m.menuItemID == itemID

/-- A row of `menu_item` after the call has everything that another one had before it. -/
structure FaithfulItem (before after : Db) (categoryID : Option UUID) (m copy : MenuItemRow) : Prop where
  columns : ∃ id name actor now, copy = m.copy id categoryID name actor now
  links : ∀ t : ItemLinks, t.targets copy.id after = t.targets m.id before
  modifications : ((after.everyModificationOf copy.id).map MenuItemModificationRow.content).Perm
    ((before.livingModifications m.id).map MenuItemModificationRow.content)
  noneDeleted : ∀ p ∈ after.everyModificationOf copy.id, p.deletedAt = none

/-- What hangs off an item is what hung off it. -/
structure ItemKept (before after : Db) (id : UUID) : Prop where
  links : ∀ t : ItemLinks, t.targets id after = t.targets id before
  modifications : after.everyModificationOf id = before.everyModificationOf id

/-- All tables but those that a copy is written to -/
def Db.withoutMenu (db : Db) : Db :=
  { db with
    menuItems := [], menuCategories := [], menuCategoryAvailability := [], menuItemTags := []
    menuItemAllergens := [], menuItemAdditives := [], menuItemAvailability := []
    menuItemModifications := [] }

/-- New rows stand behind those that were there, in the tables of the menu; the rest is as it was. -/
structure MenuKept (before after : Db) : Prop where
  items : before.menuItems <+: after.menuItems
  categories : before.menuCategories <+: after.menuCategories
  categoryAvailability : before.menuCategoryAvailability <+: after.menuCategoryAvailability
  links : ∀ t : ItemLinks, t.rows before <+: t.rows after
  modifications : before.menuItemModifications <+: after.menuItemModifications
  hanging : ∀ id, (before.menuItem id).isSome → ItemKept before after id
  rest : after.withoutMenu = before.withoutMenu

/-- The names of the copies are those of no living item of their restaurant, and of no two of them. -/
structure FreshNamesOf (rt : Runtime) (before : Db) (copies : List MenuItemRow) : Prop where
  free : ∀ copy ∈ copies, ∀ p ∈ before.menuItems, p.deletedAt = none → p.restaurantID = copy.restaurantID →
    rt.lower p.name ≠ rt.lower copy.name
  distinct : copies.Pairwise fun copy copy' => copy.restaurantID = copy'.restaurantID →
    rt.lower copy.name ≠ rt.lower copy'.name

namespace MenuKept

variable {before mid after : Db} {id : UUID} {m : MenuItemRow}

theorem refl (db : Db) : MenuKept db db where
  items := List.prefix_rfl
  categories := List.prefix_rfl
  categoryAvailability := List.prefix_rfl
  links _ := List.prefix_rfl
  modifications := List.prefix_rfl
  hanging _ _ := ⟨fun _ => rfl, rfl⟩
  rest := rfl

theorem menuItem (h : MenuKept before after) (hm : before.menuItem id = some m) : after.menuItem id = some m :=
  h.items.find?_eq_some hm

theorem trans (h : MenuKept before mid) (h' : MenuKept mid after) : MenuKept before after where
  items := h.items.trans h'.items
  categories := h.categories.trans h'.categories
  categoryAvailability := h.categoryAvailability.trans h'.categoryAvailability
  links t := (h.links t).trans (h'.links t)
  modifications := h.modifications.trans h'.modifications
  hanging id hid := by
    obtain ⟨m, hm⟩ := Option.isSome_iff_exists.mp hid
    have hmid : (mid.menuItem id).isSome := Option.isSome_iff_exists.mpr ⟨m, h.menuItem hm⟩
    have hkept := h.hanging id hid
    have hkept' := h'.hanging id hmid
    exact ⟨fun t => (hkept'.links t).trans (hkept.links t), hkept'.modifications.trans hkept.modifications⟩
  rest := h'.rest.trans h.rest

end MenuKept

/-! ## One more copy -/

/-- A copy, with what came along -/
structure ItemCopy where
  row : MenuItemRow
  links : ItemLinks → List UUID
  modifications : List MenuItemModificationRow

/-- Nothing hangs off an id that no item has. -/
def Db.NothingLoose (db : Db) : Prop := ∀ id, db.menuItem id = none →
  (∀ t : ItemLinks, t.targets id db = []) ∧ db.everyModificationOf id = []

namespace Db

def addCopy (db : Db) (c : ItemCopy) : Db :=
  { db with
    menuItems := db.menuItems ++ [c.row]
    menuItemTags := db.menuItemTags ++ ItemLinks.rowsFor c.row.id (c.links (.classified .tag))
    menuItemAllergens := db.menuItemAllergens ++ ItemLinks.rowsFor c.row.id (c.links (.classified .allergen))
    menuItemAdditives := db.menuItemAdditives ++ ItemLinks.rowsFor c.row.id (c.links (.classified .additive))
    menuItemAvailability := db.menuItemAvailability ++
      (ItemLinks.rowsFor c.row.id (c.links .availability)).map fun l =>
        { menuItemID := l.menuItemID, filterID := l.targetID }
    menuItemModifications := db.menuItemModifications ++ c.modifications }

variable {db : Db} {c : ItemCopy} {id : UUID} {m : MenuItemRow}

theorem rows_addCopy (t : ItemLinks) :
    t.rows (db.addCopy c) = t.rows db ++ ItemLinks.rowsFor c.row.id (c.links t) := by
  cases t with
  | classified k => cases k <;> rfl
  | availability =>
    show (db.menuItemAvailability ++ _).map _ = _
    rw [List.map_append, List.map_map]
    exact congrArg (_ ++ ·) (List.map_id _)

theorem filter_rowsFor_self (id : UUID) (linked : List UUID) :
    ((ItemLinks.rowsFor id linked).filter fun l => l.menuItemID == id).map MenuItemLinkRow.targetID =
      linked := by
  have hall : (ItemLinks.rowsFor id linked).filter (fun l => l.menuItemID == id) =
      ItemLinks.rowsFor id linked := by
    rw [List.filter_eq_self]
    intro l hl
    obtain ⟨k, -, rfl⟩ := List.mem_map.mp hl
    exact beq_self_eq_true id
  rw [hall, ItemLinks.rowsFor, List.map_map]
  exact List.map_id _

theorem filter_rowsFor_other {id id' : UUID} (h : id' ≠ id) (linked : List UUID) :
    (ItemLinks.rowsFor id linked).filter (fun l => l.menuItemID == id') = [] := by
  rw [List.filter_eq_nil_iff]
  intro l hl
  obtain ⟨k, -, rfl⟩ := List.mem_map.mp hl
  exact fun heq => h (beq_iff_eq.mp heq).symm

/-- A copy is linked to what it was linked to when it was added. -/
theorem targets_addCopy_self (t : ItemLinks) (hnone : t.targets c.row.id db = []) :
    t.targets c.row.id (db.addCopy c) = c.links t := by
  have hold : ((t.rows db).filter fun l => l.menuItemID == c.row.id).map MenuItemLinkRow.targetID = [] := hnone
  unfold ItemLinks.targets
  rw [rows_addCopy, List.filter_append, List.map_append, hold, List.nil_append, filter_rowsFor_self]

/-- Another item is linked to what it was. -/
theorem targets_addCopy_other (t : ItemLinks) (h : id ≠ c.row.id) :
    t.targets id (db.addCopy c) = t.targets id db := by
  unfold ItemLinks.targets
  rw [rows_addCopy, List.filter_append, filter_rowsFor_other h, List.append_nil]

theorem everyModificationOf_addCopy_self (howned : ∀ p ∈ c.modifications, p.menuItemID = c.row.id)
    (hnone : db.everyModificationOf c.row.id = []) :
    (db.addCopy c).everyModificationOf c.row.id = c.modifications := by
  show (db.menuItemModifications ++ c.modifications).filter _ = _
  have hold : db.menuItemModifications.filter (fun m => m.menuItemID == c.row.id) = [] := hnone
  rw [List.filter_append, hold, List.nil_append, List.filter_eq_self]
  exact fun p hp => beq_iff_eq.mpr (howned p hp)

theorem everyModificationOf_addCopy_other (howned : ∀ p ∈ c.modifications, p.menuItemID = c.row.id)
    (h : id ≠ c.row.id) : (db.addCopy c).everyModificationOf id = db.everyModificationOf id := by
  show (db.menuItemModifications ++ c.modifications).filter _ = _
  have hnew : c.modifications.filter (fun m => m.menuItemID == id) = [] := by
    rw [List.filter_eq_nil_iff]
    intro p hp heq
    apply h
    rw [← beq_iff_eq.mp heq]
    exact howned p hp
  rw [List.filter_append, hnew, List.append_nil]
  rfl

theorem menuItem_addCopy_self (hfresh : db.menuItem c.row.id = none) :
    (db.addCopy c).menuItem c.row.id = some c.row := by
  show (db.menuItems ++ [c.row]).find? _ = some c.row
  have hfind : db.menuItems.find? (fun m => m.id == c.row.id) = none := hfresh
  rw [List.find?_append, hfind]
  simp

theorem menuItem_addCopy_none (h : (db.addCopy c).menuItem id = none) : db.menuItem id = none ∧ id ≠ c.row.id := by
  have hfind : (db.menuItems ++ [c.row]).find? (fun m => m.id == id) = none := h
  rw [List.find?_append, Option.or_eq_none_iff] at hfind
  refine ⟨hfind.1, fun heq => ?_⟩
  simpa [heq] using hfind.2

theorem livingModifications_eq (id : UUID) : db.livingModifications id =
    (db.everyModificationOf id).filter fun m => m.deletedAt.isNone := by
  unfold livingModifications everyModificationOf
  rw [List.filter_filter]
  congr 1
  funext m
  exact Bool.and_comm _ _

end Db

/-- `c` is a copy of the item as these tables have it. -/
structure CopiedFrom (rt : Runtime) (view : Db) (categoryID : Option UUID) (m : MenuItemRow) (c : ItemCopy) :
    Prop where
  columns : ∃ id name actor now, c.row = m.copy id categoryID name actor now
  fresh : view.menuItem c.row.id = none
  free : ∀ p ∈ view.menuItems, p.deletedAt = none → p.restaurantID = c.row.restaurantID →
    rt.lower p.name ≠ rt.lower c.row.name
  links : ∀ t, c.links t = t.targets m.id view
  owned : ∀ p ∈ c.modifications, p.menuItemID = c.row.id
  living : ∀ p ∈ c.modifications, p.deletedAt = none
  modifications : c.modifications.map MenuItemModificationRow.content =
    (view.listModifications rt m.id).map MenuItemModificationRow.content

namespace CopiedFrom

variable {rt : Runtime} {view after : Db} {categoryID : Option UUID} {m : MenuItemRow} {c : ItemCopy} {id : UUID}

theorem rowLiving (h : CopiedFrom rt view categoryID m c) : c.row.deletedAt = none := by
  obtain ⟨id, name, actor, now, hrow⟩ := h.columns
  rw [hrow]
  rfl

/-- What is added to the tables is the copy's own. -/
theorem kept (h : CopiedFrom rt view categoryID m c) : MenuKept view (view.addCopy c) where
  items := List.prefix_append _ _
  categories := List.prefix_rfl
  categoryAvailability := List.prefix_rfl
  links t := by
    rw [Db.rows_addCopy]
    exact List.prefix_append _ _
  modifications := List.prefix_append _ _
  hanging id hid := by
    have hother : id ≠ c.row.id := by
      intro heq
      rw [heq, h.fresh] at hid
      cases hid
    exact ⟨fun t => Db.targets_addCopy_other t hother, Db.everyModificationOf_addCopy_other h.owned hother⟩
  rest := rfl

theorem nothingLoose (h : CopiedFrom rt view categoryID m c) (hloose : view.NothingLoose) :
    (view.addCopy c).NothingLoose := by
  intro id hid
  obtain ⟨hnone, hother⟩ := Db.menuItem_addCopy_none hid
  obtain ⟨hlinks, hmodifications⟩ := hloose id hnone
  refine ⟨fun t => ?_, ?_⟩
  · rw [Db.targets_addCopy_other t hother, hlinks t]
  · rw [Db.everyModificationOf_addCopy_other h.owned hother, hmodifications]

/-- **A copy is faithful, whatever is added behind it.** -/
theorem faithful (h : CopiedFrom rt view categoryID m c) (hloose : view.NothingLoose)
    (hkept : MenuKept (view.addCopy c) after) : FaithfulItem view after categoryID m c.row := by
  have hself : ((view.addCopy c).menuItem c.row.id).isSome := by
    rw [Db.menuItem_addCopy_self h.fresh]
    rfl
  obtain ⟨hlinks, hmodifications⟩ := hkept.hanging c.row.id hself
  obtain ⟨hnone, hbare⟩ := hloose c.row.id h.fresh
  have hown : after.everyModificationOf c.row.id = c.modifications := by
    rw [hmodifications, Db.everyModificationOf_addCopy_self h.owned hbare]
  refine ⟨h.columns, fun t => ?_, ?_, fun p hp => ?_⟩
  · rw [hlinks t, Db.targets_addCopy_self t (hnone t), h.links t]
  · rw [hown, h.modifications]
    exact (sliceStable_perm _ _).map _
  · rw [hown] at hp
    exact h.living p hp

end CopiedFrom

/-- An item that was there before the copies is as faithful to itself. -/
theorem FaithfulItem.before {before mid after : Db} {categoryID : Option UUID} {m copy : MenuItemRow}
    (h : FaithfulItem mid after categoryID m copy) (hkept : ItemKept before mid m.id) :
    FaithfulItem before after categoryID m copy := by
  refine ⟨h.columns, fun t => (h.links t).trans (hkept.links t), ?_, h.noneDeleted⟩
  have hliving : mid.livingModifications m.id = before.livingModifications m.id := by
    rw [Db.livingModifications_eq, Db.livingModifications_eq, hkept.modifications]
  rw [← hliving]
  exact h.modifications

/-! ## Copies one after the other -/

inductive CopiedAll (rt : Runtime) (categoryID : Option UUID) :
    Db → List MenuItemRow → List ItemCopy → Db → Prop where
  | nil (db : Db) : CopiedAll rt categoryID db [] [] db
  | cons {view after : Db} {m : MenuItemRow} {c : ItemCopy} {items : List MenuItemRow} {copies : List ItemCopy}
      (first : CopiedFrom rt view categoryID m c) (rest : CopiedAll rt categoryID (view.addCopy c) items copies after) :
      CopiedAll rt categoryID view (m :: items) (c :: copies) after

namespace CopiedAll

variable {rt : Runtime} {view after : Db} {categoryID : Option UUID} {items : List MenuItemRow}
  {copies : List ItemCopy}

theorem kept (h : CopiedAll rt categoryID view items copies after) : MenuKept view after := by
  induction h with
  | nil db => exact .refl db
  | cons first rest ih => exact first.kept.trans ih

theorem menuItems (h : CopiedAll rt categoryID view items copies after) :
    after.menuItems = view.menuItems ++ copies.map ItemCopy.row := by
  induction h with
  | nil db => rw [List.map_nil, List.append_nil]
  | cons first rest ih =>
    rw [ih, List.map_cons]
    exact List.append_assoc _ _ _

/-- Nothing but the items, and what hangs off them, is new. -/
theorem categories (h : CopiedAll rt categoryID view items copies after) :
    after.menuCategories = view.menuCategories ∧
      after.menuCategoryAvailability = view.menuCategoryAvailability := by
  induction h with
  | nil db => exact ⟨rfl, rfl⟩
  | cons first rest ih => exact ih

theorem fresh (h : CopiedAll rt categoryID view items copies after) :
    (∀ c ∈ copies, view.menuItem c.row.id = none) ∧ (copies.map fun c => c.row.id).Nodup := by
  induction h with
  | nil db => exact ⟨fun c hc => absurd hc List.not_mem_nil, List.nodup_nil⟩
  | cons first rest ih =>
    obtain ⟨hnew, hnodup⟩ := ih
    refine ⟨fun c' hc' => ?_, ?_⟩
    · rcases List.mem_cons.mp hc' with rfl | hc'
      · exact first.fresh
      · exact (Db.menuItem_addCopy_none (hnew c' hc')).1
    · rw [List.map_cons, List.nodup_cons]
      refine ⟨fun hmem => ?_, hnodup⟩
      obtain ⟨c', hc', heq⟩ := List.mem_map.mp hmem
      exact (Db.menuItem_addCopy_none (hnew c' hc')).2 heq

/-- Every copy is named when the ones before it are there already. -/
theorem names (h : CopiedAll rt categoryID view items copies after) :
    FreshNamesOf rt view (copies.map ItemCopy.row) := by
  induction h with
  | nil db => exact ⟨fun c hc => absurd hc List.not_mem_nil, List.Pairwise.nil⟩
  | @cons view after m c items copies first rest ih =>
    refine ⟨fun copy hcopy p hp => ?_, ?_⟩
    · rcases List.mem_cons.mp hcopy with rfl | hcopy
      · exact first.free p hp
      · exact ih.free copy hcopy p (List.mem_append_left _ hp)
    · rw [List.map_cons, List.pairwise_cons]
      refine ⟨fun copy hcopy hsame => ?_, ih.distinct⟩
      have hadded : c.row ∈ (view.addCopy c).menuItems := List.mem_append_right _ List.mem_cons_self
      exact ih.free copy hcopy c.row hadded first.rowLiving hsame

/-- **They are one faithful copy for each of the items**, in their order. -/
theorem faithful (h : CopiedAll rt categoryID view items copies after) (hloose : view.NothingLoose)
    (hitems : ∀ m ∈ items, (view.menuItem m.id).isSome) :
    List.Forall₂ (FaithfulItem view after categoryID) items (copies.map ItemCopy.row) := by
  induction h with
  | nil db => exact .nil
  | @cons view after m c items copies first rest ih =>
    have hthere : ∀ p ∈ items, ((view.addCopy c).menuItem p.id).isSome := by
      intro p hp
      obtain ⟨q, hq⟩ := Option.isSome_iff_exists.mp (hitems p (List.mem_cons_of_mem _ hp))
      exact Option.isSome_iff_exists.mpr ⟨q, first.kept.menuItem hq⟩
    refine .cons (first.faithful hloose rest.kept) ?_
    have hrest := ih (first.nothingLoose hloose) hthere
    -- the items that are still to come have not changed
    have hmem := (List.forall₂_and_left items _).mpr ⟨fun p hp => hitems p (List.mem_cons_of_mem _ hp), hrest⟩
    exact hmem.imp fun p copy hp => hp.2.before (first.kept.hanging p.id hp.1)

end CopiedAll

end Doenerstag
