import Doenerstag.Db.MenuItemOrder
import Doenerstag.Lib.Failure

/-!
# Listing a menu (`internal/db/menufilter.go`)

* `MenuItemFilter.keeps` — the conditions that a filter adds to the query.
* `listMenuItems` — `ListMenuItems`: one query for the items, in the order of the menu, and three for what
  classifies them.
* `sortMenu_ok_iff` — the order by can be evaluated when the number of every selected row fits a `bigint`.
* `listMenuItems_answered_iff` — **a menu can be listed exactly when the numbers of the items listed do.**
-/

namespace Doenerstag

open ReadCommitted Prog

/-! ## The filter -/

structure MenuItemFilter where
  categoryIDs : List UUID
  tagCodes : List String
  excludeAllergenCodes : List String
  excludeAdditiveCodes : List String
  available : Option Bool
  deriving DecidableEq, Repr

/-- `MenuItemFilter{}` -/
def MenuItemFilter.empty : MenuItemFilter :=
  { categoryIDs := [], tagCodes := [], excludeAllergenCodes := [], excludeAdditiveCodes := [], available := none }

namespace Classification

/-- The table a kind of link refers to: the ids with their codes -/
def coded (c : Classification) (db : Db) : List (UUID × String) :=
  match c with
  | tag => db.tags.map fun t => (t.id, t.code)
  | allergen => db.allergens.map fun a => (a.id, a.code)
  | additive => db.additives.map fun a => (a.id, a.code)

/-- `EXISTS (SELECT 1 FROM … JOIN … WHERE … menu_item_id = menu_item.id AND … code = ANY(…))` -/
def carries (c : Classification) (db : Db) (itemID : UUID) (codes : List String) : Bool :=
  (c.links db).any fun l => l.menuItemID == itemID &&
    (c.coded db).any fun t => t.1 == l.targetID && codes.contains t.2

end Classification

/-- The clauses behind the first two, each left out when its field is not set -/
def MenuItemFilter.keeps (filter : MenuItemFilter) (db : Db) (m : MenuItemRow) : Bool :=
  (filter.categoryIDs.isEmpty || m.categoryID.any filter.categoryIDs.contains) &&
    filter.available.all (fun available => m.available == available) &&
    (filter.tagCodes.isEmpty || Classification.tag.carries db m.id filter.tagCodes) &&
    (filter.excludeAllergenCodes.isEmpty || !Classification.allergen.carries db m.id filter.excludeAllergenCodes) &&
    (filter.excludeAdditiveCodes.isEmpty || !Classification.additive.carries db m.id filter.excludeAdditiveCodes)

/-- The rows that `ListMenuItems` selects -/
def Db.listedItems (db : Db) (restaurantID : UUID) (filter : MenuItemFilter) : List MenuItemRow :=
  db.menuItems.filter fun m => m.restaurantID == restaurantID && m.deletedAt.isNone && filter.keeps db m

/-! ## The queries -/

inductive ListMenuItemsStmt where
  | items
  | tags
  | allergens
  | additives
  deriving DecidableEq, Repr

/-- The tags, allergens and additives by their ids; in which order the answer has them is left out. -/
structure ListedItem extends MenuItem where
  tags : List UUID
  allergens : List UUID
  additives : List UUID
  deriving DecidableEq, Repr

/-- `SELECT … FROM … JOIN … WHERE menu_item_id = ANY($1)` -/
def Classification.linksOf (c : Classification) (ids : List UUID) (db : Db) : List MenuItemLinkRow :=
  (c.links db).filter fun l => ids.contains l.menuItemID && c.known db l.targetID

/-- What the rows link an item to -/
def targetsIn (links : List MenuItemLinkRow) (itemID : UUID) : List UUID :=
  (links.filter fun l => l.menuItemID == itemID).map MenuItemLinkRow.targetID

/-- Different links of an item are to different things. -/
theorem targetsIn_nodup {links : List MenuItemLinkRow} (hlinks : links.Nodup) (itemID : UUID) :
    (targetsIn links itemID).Nodup := by
  refine (List.nodup_map_iff_inj_on (hlinks.filter _)).mpr fun l hl l' hl' heq => ?_
  have hid := beq_iff_eq.mp (List.mem_filter.mp hl).2
  have hid' := beq_iff_eq.mp (List.mem_filter.mp hl').2
  cases l
  cases l'
  simp_all

def loadClassification (items : List MenuItem) : DbProgram ListMenuItemsStmt (List ListedItem) :=
  if items.isEmpty then
    pure []
  else do
    let ids := items.map MenuItem.id
    let tags ← (query .tags (Classification.tag.linksOf ids)).mapError otherError
    let allergens ← (query .allergens (Classification.allergen.linksOf ids)).mapError otherError
    let additives ← (query .additives (Classification.additive.linksOf ids)).mapError otherError
    pure (items.map fun m => { m with
      tags := targetsIn tags m.id, allergens := targetsIn allergens m.id, additives := targetsIn additives m.id })

def listMenuItems (rt : Runtime) (restaurantID : UUID) (filter : MenuItemFilter) :
    DbProgram ListMenuItemsStmt (List ListedItem) := do
  let rows ← (select .items fun db => sortMenu rt (db.listedItems restaurantID filter)).mapError otherError
  loadClassification (rows.map MenuItemRow.scan)

/-! ## When the cast goes well -/

/-- A number of digits is below the range of `bigint`. -/
def NumberFits (externalID : Option String) : Prop := ∀ id ∈ externalID, isNumber id = true → numberOf id < 2 ^ 63

theorem menuNumber_isSome_iff {externalID : Option String} :
    (menuNumber externalID).isSome ↔ NumberFits externalID := by
  unfold menuNumber NumberFits
  cases externalID with
  | none => simp
  | some id =>
    by_cases hnumber : isNumber id = true
    · simp [hnumber]
    · simp [hnumber]

theorem sortMenu_ok_iff (rt : Runtime) {rows : List MenuItemRow} :
    (∃ sorted, sortMenu rt rows = .ok sorted) ↔ ∀ m ∈ rows, NumberFits m.externalID := by
  have hany : (rows.any fun m => (menuNumber m.externalID).isNone) = false ↔
      ∀ m ∈ rows, NumberFits m.externalID := by
    rw [List.any_eq_false]
    refine forall₂_congr fun m _ => ?_
    rw [← menuNumber_isSome_iff]
    cases menuNumber m.externalID <;> simp
  rw [← hany]
  unfold sortMenu
  cases rows.any fun m => (menuNumber m.externalID).isNone with
  | true => simp
  | false => simp

section Listing

variable {rt : Runtime} {w : World Db Time} {ω : ListMenuItemsStmt → Outcome}

theorem loadClassification_answered (hω : ∀ l, ω l = .ok) (items : List MenuItem) :
    (loadClassification items).Answered ω w := by
  unfold loadClassification
  split_ifs with hempty
  · exact answered_done _
  · have hgoes : ∀ l, ω l ≠ .failure := fun l hl => by rw [hω l] at hl; cases hl
    refine answered_query_bind.mpr ⟨hgoes _, ?_⟩
    refine answered_query_bind.mpr ⟨hgoes _, ?_⟩
    exact answered_query_bind.mpr ⟨hgoes _, answered_done _⟩

/-- **A menu can be listed, with any filter, exactly when the numbers of the items listed fit.** -/
theorem listMenuItems_answered_iff (hω : ∀ l, ω l = .ok) (restaurantID : UUID) (filter : MenuItemFilter) :
    (listMenuItems rt restaurantID filter).Answered ω w ↔
      ∀ m ∈ w.db.listedItems restaurantID filter, NumberFits m.externalID := by
  rw [← sortMenu_ok_iff rt, listMenuItems, answered_select_bind]
  constructor
  · rintro ⟨-, sorted, hsorted, -⟩
    exact ⟨sorted, hsorted⟩
  · rintro ⟨sorted, hsorted⟩
    refine ⟨fun hl => ?_, sorted, hsorted, loadClassification_answered hω _⟩
    rw [hω] at hl
    cases hl

end Listing

end Doenerstag
