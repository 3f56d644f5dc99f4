import Doenerstag.Db.Queries
import Doenerstag.Lib.GroupFold

/-!
# Availability filters in bulk (`internal/db/availability.go`)

A menu loads the filters of a whole restaurant with two queries, one for the categories and one for
the dishes, and groups the rows by their owner. What a group holds is what the query for that one
owner finds (`mem_filtersByCategory`, `mem_filtersByMenuItem`).
-/

namespace Doenerstag

open GroupFold

/-- `filtersByOwner`: the rows of a bulk query under the id in their first column. -/
def filtersByOwner (rows : List (UUID × AvailabilityFilter)) (owner : UUID) :
    List AvailabilityFilter :=
  let out := groupFold Prod.fst (fun _ => []) (fun filters row => filters ++ [row.2]) rows
  (out.lines owner).getD []

theorem filtersByOwner_eq (rows : List (UUID × AvailabilityFilter)) (owner : UUID) :
    filtersByOwner rows owner = (bucket Prod.fst owner rows).map Prod.snd := by
  have happend : ∀ (group : List (UUID × AvailabilityFilter)) (start : List AvailabilityFilter),
      group.foldl (fun filters row => filters ++ [row.2]) start = start ++ group.map Prod.snd := by
    intro group
    induction group with
    | nil => simp
    | cons row rest ih => simp [ih]
  unfold filtersByOwner
  simp only [groupFold_lines]
  cases bucket Prod.fst owner rows with
  | nil => rfl
  | cons row rest =>
    rw [summarise, Option.getD_some, happend]
    rfl

namespace Db

variable (db : Db)

/-- The filters of the attachments whose owner is selected, joined and sorted. -/
def attachedFilters (rt : Runtime) (attached : List (UUID × UUID)) (selected : UUID → Bool) :
    List (UUID × AvailabilityFilter) :=
  let rows := attached.filterMap fun (owner, filterID) =>
    if selected owner then
      (db.availabilityFilters.find? fun f => f.id == filterID).map (owner, ·)
    else
      none
  let sorted := sliceStable
    (fun a b => a.2.sortOrder < b.2.sortOrder ||
      (a.2.sortOrder == b.2.sortOrder && rt.sortsBefore (rt.lower a.2.name) (rt.lower b.2.name)))
    rows
  sorted.map fun (owner, f) => (owner, scanAvailabilityFilter f)

/-- `FiltersByCategory` -/
def filtersByCategory (rt : Runtime) (restaurantID : UUID) : UUID → List AvailabilityFilter :=
  filtersByOwner <| db.attachedFilters rt
    (db.menuCategoryAvailability.map fun a => (a.categoryID, a.filterID))
    fun id => db.menuCategories.any fun c => c.id == id && c.restaurantID == restaurantID

/-- `FiltersByMenuItem` -/
def filtersByMenuItem (rt : Runtime) (restaurantID : UUID) : UUID → List AvailabilityFilter :=
  filtersByOwner <| db.attachedFilters rt
    (db.menuItemAvailability.map fun a => (a.menuItemID, a.filterID))
    fun id => db.menuItems.any fun m => m.id == id && m.restaurantID == restaurantID

variable {db}

theorem mem_filtersForOne {rt : Runtime} {ids : List UUID} {f : AvailabilityFilter} :
    f ∈ db.filtersForOne rt ids ↔ ∃ id ∈ ids, ∃ row,
      (db.availabilityFilters.find? fun row => row.id == id) = some row ∧
        scanAvailabilityFilter row = f := by
  unfold filtersForOne
  simp only [List.mem_map, (sliceStable_perm _ _).mem_iff, List.mem_filterMap]
  constructor
  · rintro ⟨row, ⟨id, hid, hfound⟩, hscan⟩
    exact ⟨id, hid, row, hfound, hscan⟩
  · rintro ⟨id, hid, row, hfound, hscan⟩
    exact ⟨row, ⟨id, hid, hfound⟩, hscan⟩

/-- A group of a bulk query holds what is attached to its owner, if the owner is selected. -/
theorem mem_filtersByOwner_attached {rt : Runtime} {attached : List (UUID × UUID)}
    {selected : UUID → Bool} {owner : UUID} {f : AvailabilityFilter} :
    f ∈ filtersByOwner (db.attachedFilters rt attached selected) owner ↔
      selected owner = true ∧
        f ∈ db.filtersForOne rt ((attached.filter fun a => a.1 == owner).map Prod.snd) := by
  rw [filtersByOwner_eq, mem_filtersForOne]
  unfold attachedFilters
  simp only [List.mem_map, mem_bucket, (sliceStable_perm _ _).mem_iff, List.mem_filterMap,
    List.mem_filter, Prod.exists]
  constructor
  · rintro ⟨_, _, ⟨⟨_, row, ⟨_, id, hattached, hrow⟩, hscan⟩, rfl⟩, rfl⟩
    split_ifs at hrow with hselected
    obtain ⟨found, hfound, hpair⟩ := Option.map_eq_some_iff.mp hrow
    cases hpair
    cases hscan
    exact ⟨hselected, id, ⟨_, _, ⟨hattached, beq_self_eq_true _⟩, rfl⟩, row, hfound, rfl⟩
  · rintro ⟨hselected, id, ⟨o, _, ⟨hattached, ho⟩, rfl⟩, row, hfound, rfl⟩
    have hsame : o = owner := eq_of_beq ho
    subst hsame
    refine ⟨_, _, ⟨⟨o, row, ⟨o, _, hattached, ?_⟩, rfl⟩, rfl⟩, rfl⟩
    rw [if_pos hselected, hfound]
    rfl

theorem mem_filtersByCategory {rt : Runtime} {restaurantID categoryID : UUID}
    {f : AvailabilityFilter} {c : MenuCategoryRow} (hc : c ∈ db.menuCategories)
    (hkey : c.key = (restaurantID, categoryID)) :
    f ∈ db.filtersByCategory rt restaurantID categoryID ↔
      f ∈ db.filtersForCategory rt categoryID := by
  obtain ⟨hrestaurant, hid⟩ := Prod.mk.inj hkey
  have hselected : (db.menuCategories.any fun c =>
      c.id == categoryID && c.restaurantID == restaurantID) = true :=
    List.any_eq_true.mpr ⟨c, hc, by rw [hid, hrestaurant]; simp⟩
  unfold filtersByCategory
  rw [mem_filtersByOwner_attached, and_iff_right hselected]
  simp only [filtersForCategory, List.filter_map, List.map_map]
  rfl

theorem mem_filtersByMenuItem {rt : Runtime} {f : AvailabilityFilter} {m : MenuItemRow}
    (hm : m ∈ db.menuItems) :
    f ∈ db.filtersByMenuItem rt m.restaurantID m.id ↔ f ∈ db.filtersForMenuItem rt m.id := by
  have hselected : (db.menuItems.any fun p => p.id == m.id && p.restaurantID == m.restaurantID) =
      true :=
    List.any_eq_true.mpr ⟨m, hm, by simp⟩
  unfold filtersByMenuItem
  rw [mem_filtersByOwner_attached, and_iff_right hselected]
  simp only [filtersForMenuItem, List.filter_map, List.map_map]
  rfl

end Db

end Doenerstag
