import Doenerstag.Db.Duplicates
import Doenerstag.Db.MenuListing
import Doenerstag.Lib.Distribution
import Doenerstag.Lib.Placeholders
import Doenerstag.Lib.Transactions

/-!
# The menu filter (`internal/db/menufilter.go`)

`listMenuItems` has the filter as one condition on a row, and of the classification the ids alone. Here the
statement is put together as in the source, and the rows of the three further queries, with all their columns,
are distributed over the items.

* `MenuItemFilter.statement` — the clauses and the arguments; `Db.runMenuQuery` — what the database makes of them.
* `runMenuQuery_statement` — **it selects the rows that `listMenuItems` has.**
* `MenuFilter.loadClassification` — the index, and the rows that go through it.
* `menuFilter_exact` — **what is listed is what was asked for, and each item has its own classification.**
-/

namespace Doenerstag

open ReadCommitted Prog Placeholders Distribution

/-! ## The generated statement -/

/-- The clauses of the query, each with one `$%d` -/
inductive MenuClause where
  /-- `restaurant_id = $%d` -/
  | restaurantID
  /-- `category_id = ANY($%d)` -/
  | categoryID
  /-- `available = $%d` -/
  | available
  /-- `EXISTS (… code = ANY($%d))` -/
  | carriesOne (c : Classification)
  /-- `NOT EXISTS (… code = ANY($%d))` -/
  | carriesNone (c : Classification)
  deriving DecidableEq, Repr

/-- What is appended to `args` -/
inductive MenuArg where
  | uuid (id : UUID)
  | uuids (ids : List UUID)
  | boolean (b : Bool)
  | texts (codes : List String)
  deriving DecidableEq, Repr

/-- `if len(xs) > 0` -/
def given {α : Type} (xs : List α) : Option (List α) := if 0 < xs.length then some xs else none

/-- `where` and `args`. The clause `deleted_at IS NULL`, which has no argument, is in `Db.runMenuQuery`. -/
def MenuItemFilter.statement (filter : MenuItemFilter) (restaurantID : UUID) : Clauses MenuClause MenuArg :=
  (Clauses.empty.add .restaurantID (.uuid restaurantID))
    |>.whenGiven (given filter.categoryIDs) (fun s ids => s.add .categoryID (.uuids ids))
    |>.whenGiven filter.available (fun s available => s.add .available (.boolean available))
    |>.whenGiven (given filter.tagCodes) (fun s codes => s.add (.carriesOne .tag) (.texts codes))
    |>.whenGiven (given filter.excludeAllergenCodes) (fun s codes =>
      s.add (.carriesNone .allergen) (.texts codes))
    |>.whenGiven (given filter.excludeAdditiveCodes) (fun s codes =>
      s.add (.carriesNone .additive) (.texts codes))

/-- A clause with the value of its argument -/
def Db.condition (db : Db) : MenuClause → MenuArg → Except PgError (MenuItemRow → Bool)
  | .restaurantID, .uuid id => .ok fun m => m.restaurantID == id
  | .categoryID, .uuids ids => .ok fun m => m.categoryID.any ids.contains
  | .available, .boolean available => .ok fun m => m.available == available
  | .carriesOne c, .texts codes => .ok fun m => c.carries db m.id codes
  | .carriesNone c, .texts codes => .ok fun m => !c.carries db m.id codes
  | _, _ => .error .datatypeMismatch

def Db.conditions (db : Db) (values : List (MenuClause × Option MenuArg)) :
    Except PgError (List (MenuItemRow → Bool)) :=
  values.mapM fun c =>
    match c.2 with
    | none => .error .undefinedParameter
    | some a => db.condition c.1 a

def Db.runMenuQuery (rt : Runtime) (s : Clauses MenuClause MenuArg) (db : Db) :
    Except PgError (List MenuItemRow) := do
  let conditions ← db.conditions s.values
  sortMenu rt (db.menuItems.filter fun m => m.deletedAt.isNone && conditions.all fun holds => holds m)

/-! ## What the placeholders are bound to -/

/-- The clauses that a filter asks for, and the value meant for each -/
inductive MenuItemFilter.Asks (filter : MenuItemFilter) (restaurantID : UUID) : MenuClause → MenuArg → Prop
  | restaurant : Asks filter restaurantID .restaurantID (.uuid restaurantID)
  | category (h : filter.categoryIDs ≠ []) : Asks filter restaurantID .categoryID (.uuids filter.categoryIDs)
  | available (b : Bool) (h : filter.available = some b) : Asks filter restaurantID .available (.boolean b)
  | tags (h : filter.tagCodes ≠ []) : Asks filter restaurantID (.carriesOne .tag) (.texts filter.tagCodes)
  | allergens (h : filter.excludeAllergenCodes ≠ []) :
    Asks filter restaurantID (.carriesNone .allergen) (.texts filter.excludeAllergenCodes)
  | additives (h : filter.excludeAdditiveCodes ≠ []) :
    Asks filter restaurantID (.carriesNone .additive) (.texts filter.excludeAdditiveCodes)

section Statement

variable {α : Type} {rt : Runtime} {db : Db} {filter : MenuItemFilter} {restaurantID : UUID}

theorem given_eq_some_iff {xs ys : List α} : given xs = some ys ↔ xs ≠ [] ∧ ys = xs := by
  unfold given
  cases xs with
  | nil => simp
  | cons x xs => simp [eq_comm]

theorem given_all (xs : List α) (p : List α → Bool) : (given xs).all p = (xs.isEmpty || p xs) := by
  cases xs <;> rfl

theorem values_statement (filter : MenuItemFilter) (restaurantID : UUID) :
    (filter.statement restaurantID).values =
      [(.restaurantID, some (.uuid restaurantID))] ++
      Clauses.ifGiven (given filter.categoryIDs) .categoryID .uuids ++
      Clauses.ifGiven filter.available .available .boolean ++
      Clauses.ifGiven (given filter.tagCodes) (.carriesOne .tag) .texts ++
      Clauses.ifGiven (given filter.excludeAllergenCodes) (.carriesNone .allergen) .texts ++
      Clauses.ifGiven (given filter.excludeAdditiveCodes) (.carriesNone .additive) .texts := by
  unfold MenuItemFilter.statement
  simp only [Clauses.values_whenGiven_add, Clauses.values_add, Clauses.values_empty, List.nil_append]

/-- **Each placeholder is bound to the value meant for it**, whichever criteria there are. -/
theorem mem_values_statement (clause : MenuClause) (value : Option MenuArg) :
    (clause, value) ∈ (filter.statement restaurantID).values ↔
      ∃ a, value = some a ∧ filter.Asks restaurantID clause a := by
  simp only [values_statement, List.mem_append, List.mem_singleton, Clauses.mem_ifGiven, given_eq_some_iff,
    Prod.mk.injEq]
  constructor
  · rintro (((((⟨rfl, rfl⟩ | ⟨_, ⟨h, rfl⟩, rfl, rfl⟩) | ⟨b, h, rfl, rfl⟩) |
      ⟨_, ⟨h, rfl⟩, rfl, rfl⟩) | ⟨_, ⟨h, rfl⟩, rfl, rfl⟩) | ⟨_, ⟨h, rfl⟩, rfl, rfl⟩)
    · exact ⟨_, rfl, .restaurant⟩
    · exact ⟨_, rfl, .category h⟩
    · exact ⟨_, rfl, .available b h⟩
    · exact ⟨_, rfl, .tags h⟩
    · exact ⟨_, rfl, .allergens h⟩
    · exact ⟨_, rfl, .additives h⟩
  · rintro ⟨a, rfl, hasks⟩
    cases hasks <;> simp_all

/-- No clause is there twice. -/
theorem clauses_statement_nodup : ((filter.statement restaurantID).values.map Prod.fst).Nodup := by
  have hsub : ((filter.statement restaurantID).values.map Prod.fst).Sublist
      ([MenuClause.restaurantID] ++ [.categoryID] ++ [.available] ++ [.carriesOne .tag] ++
        [.carriesNone .allergen] ++ [.carriesNone .additive]) := by
    simp only [values_statement, List.map_append]
    exact (((((List.Sublist.refl _).append Clauses.clauses_ifGiven).append Clauses.clauses_ifGiven).append
      Clauses.clauses_ifGiven).append Clauses.clauses_ifGiven).append Clauses.clauses_ifGiven
  exact hsub.nodup (by decide)

/-! ## The rows that it selects -/

theorem conditions_append {xs ys : List (MenuClause × Option MenuArg)} {ps qs : List (MenuItemRow → Bool)}
    (hxs : db.conditions xs = .ok ps) (hys : db.conditions ys = .ok qs) :
    db.conditions (xs ++ ys) = .ok (ps ++ qs) := by
  unfold Db.conditions at hxs hys ⊢
  rw [List.mapM_append, hxs, hys]
  rfl

theorem conditions_ifGiven {β : Type} {asked : Option β} {clause : MenuClause} {value : β → MenuArg}
    {p : β → MenuItemRow → Bool} (h : ∀ b, db.condition clause (value b) = .ok (p b)) :
    db.conditions (Clauses.ifGiven asked clause value) = .ok (asked.elim [] fun b => [p b]) := by
  cases asked with
  | none => rfl
  | some b =>
    show List.mapM _ [(clause, some (value b))] = _
    simp only [List.mapM_cons, List.mapM_nil, h]
    rfl

theorem all_elim {β : Type} (asked : Option β) (p : β → MenuItemRow → Bool) (m : MenuItemRow) :
    ((asked.elim [] fun b => [p b]).all fun holds => holds m) = asked.all fun b => p b m := by
  cases asked <;> simp

/-- **The statement selects the rows that `listMenuItems` has.** -/
theorem runMenuQuery_statement :
    db.runMenuQuery rt (filter.statement restaurantID) = sortMenu rt (db.listedItems restaurantID filter) := by
  have hfirst : db.conditions [(.restaurantID, some (.uuid restaurantID))] =
      .ok [fun m => m.restaurantID == restaurantID] := rfl
  have hcategory : db.conditions (Clauses.ifGiven (given filter.categoryIDs) .categoryID .uuids) =
      .ok ((given filter.categoryIDs).elim [] fun ids => [fun m => m.categoryID.any ids.contains]) :=
    conditions_ifGiven fun _ => rfl
  have havailable : db.conditions (Clauses.ifGiven filter.available .available .boolean) =
      .ok (filter.available.elim [] fun available => [fun m => m.available == available]) :=
    conditions_ifGiven fun _ => rfl
  have htags : db.conditions (Clauses.ifGiven (given filter.tagCodes) (.carriesOne .tag) .texts) =
      .ok ((given filter.tagCodes).elim [] fun codes => [fun m => Classification.tag.carries db m.id codes]) :=
    conditions_ifGiven fun _ => rfl
  have hexcluded (c : Classification) (codes : List String) :
      db.conditions (Clauses.ifGiven (given codes) (.carriesNone c) .texts) =
        .ok ((given codes).elim [] fun codes => [fun m => !c.carries db m.id codes]) :=
    conditions_ifGiven fun _ => rfl
  have hconditions := conditions_append (conditions_append (conditions_append (conditions_append
    (conditions_append hfirst hcategory) havailable) htags) (hexcluded .allergen filter.excludeAllergenCodes))
    (hexcluded .additive filter.excludeAdditiveCodes)
  unfold Db.runMenuQuery
  rw [values_statement, hconditions]
  show sortMenu rt (db.menuItems.filter _) = _
  congr 1
  refine List.filter_congr fun m _ => ?_
  simp only [List.all_append, all_elim, given_all, MenuItemFilter.keeps, List.all_cons, List.all_nil, Bool.and_true]
  ac_rfl

end Statement

/-! ## The classification -/

/-- A row of `tag`, `allergen` or `additive` -/
structure ReferenceRow where
  id : UUID
  code : String
  /-- the `name` of a tag, the `reference` of the other two; only an additive may have none -/
  text : Option String
  sortOrder : Int
  deriving DecidableEq, Repr

/-- The database, with all columns of the three tables that menu items are classified by. -/
structure ReferenceDb where
  rows : Classification → List ReferenceRow
  rest : Db

/-- The database with their codes -/
def ReferenceDb.codes (s : ReferenceDb) : Db :=
  { s.rest with
    tags := (s.rows .tag).map fun r => { id := r.id, code := r.code }
    allergens := (s.rows .allergen).map fun r => { id := r.id, code := r.code }
    additives := (s.rows .additive).map fun r => { id := r.id, code := r.code } }

/-- What the schema says of it -/
structure ReferenceDb.Valid (s : ReferenceDb) : Prop where
  codes : s.codes.Valid
  keys : ∀ c, ((s.rows c).map ReferenceRow.id).Nodup

/-- `model.Tag`, `model.Allergen` and `model.Additive` -/
structure Mark where
  id : UUID
  code : String
  /-- `Name` or `Reference` -/
  text : String
  sortOrder : Int
  deriving DecidableEq, Repr

def ReferenceRow.mark (r : ReferenceRow) : Mark :=
  { id := r.id, code := r.code, text := r.text.getD "", sortOrder := r.sortOrder }

/-- `model.MenuItem` as it is listed -/
structure ClassifiedItem extends MenuItem where
  tags : List Mark
  allergens : List Mark
  additives : List Mark
  deriving DecidableEq, Repr

/-- `scanMenuItem` -/
def MenuItemRow.classified (m : MenuItemRow) : ClassifiedItem :=
  { m.scan with tags := [], allergens := [], additives := [] }

namespace ClassifiedItem

def marks (m : ClassifiedItem) : Classification → List Mark
  | .tag => m.tags
  | .allergen => m.allergens
  | .additive => m.additives

/-- `item.Tags = append(item.Tags, t)`, and the same for the other two -/
def attach (c : Classification) (m : ClassifiedItem) (mark : Mark) : ClassifiedItem :=
  match c with
  | .tag => { m with tags := m.tags ++ [mark] }
  | .allergen => { m with allergens := m.allergens ++ [mark] }
  | .additive => { m with additives := m.additives ++ [mark] }

end ClassifiedItem

namespace MenuFilter

/-- The order of the three queries: `ORDER BY sort_order, code` -/
def markOrder (rt : Runtime) (a b : UUID × Mark) : Bool :=
  a.2.sortOrder < b.2.sortOrder || (a.2.sortOrder == b.2.sortOrder && rt.sortsBefore a.2.code b.2.code)

/-- `… JOIN … WHERE menu_item_id = ANY($1)` -/
def joined (c : Classification) (ids : List UUID) (s : ReferenceDb) : List (UUID × Mark) :=
  ((c.links s.rest).filter fun l => ids.contains l.menuItemID).flatMap fun l =>
    ((s.rows c).filter fun r => r.id == l.targetID).map fun r => (l.menuItemID, r.mark)

def stmt : Classification → ListMenuItemsStmt
  | .tag => .tags
  | .allergen => .allergens
  | .additive => .additives

/-- One of the three queries, and the loop over its rows -/
def loadMarks (rt : Runtime) (c : Classification) (ids : List UUID) (index : UUID → Option Nat)
    (items : List ClassifiedItem) : Program ListMenuItemsStmt ReferenceDb Time DbError (List ClassifiedItem) := do
  let rows ← (query (stmt c) fun s => sliceStable (markOrder rt) (joined c ids s)).mapError otherError
  pure (distribute index (ClassifiedItem.attach c) items rows)

def loadClassification (rt : Runtime) (items : List ClassifiedItem) (ids : List UUID) :
    Program ListMenuItemsStmt ReferenceDb Time DbError (List ClassifiedItem) :=
  if items.isEmpty then
    pure items
  else do
    let index := indexOf (fun m : ClassifiedItem => m.id) items
    let items ← loadMarks rt .tag ids index items
    let items ← loadMarks rt .allergen ids index items
    loadMarks rt .additive ids index items

def listMenuItems (rt : Runtime) (restaurantID : UUID) (filter : MenuItemFilter) :
    Program ListMenuItemsStmt ReferenceDb Time DbError (List ClassifiedItem) := do
  let rows ← (select .items fun s : ReferenceDb =>
    s.codes.runMenuQuery rt (filter.statement restaurantID)).mapError otherError
  loadClassification rt (rows.map MenuItemRow.classified) (rows.map MenuItemRow.id)

/-! ## What is loaded -/

/-- What the rows of a query have for an item -/
def ownMarks (rt : Runtime) (ids : List UUID) (s : ReferenceDb) (c : Classification) (itemID : UUID) : List Mark :=
  rowsUnder itemID (sliceStable (markOrder rt) (joined c ids s))

/-- The item with what one query has for it -/
def withOwn (rt : Runtime) (ids : List UUID) (s : ReferenceDb) (c : Classification) (m : ClassifiedItem) :
    ClassifiedItem :=
  (ownMarks rt ids s c m.id).foldl (ClassifiedItem.attach c) m

def classify (rt : Runtime) (ids : List UUID) (s : ReferenceDb) (m : ClassifiedItem) : ClassifiedItem :=
  withOwn rt ids s .additive (withOwn rt ids s .allergen (withOwn rt ids s .tag m))

section Loading

variable {rt : Runtime} {ids : List UUID} {s : ReferenceDb} {c : Classification} {index : UUID → Option Nat}
  {items : List ClassifiedItem} {I : World ReferenceDb Time → Prop}

theorem foldl_attach (c : Classification) (marks : List Mark) (m : ClassifiedItem) :
    (marks.foldl (ClassifiedItem.attach c) m).toMenuItem = m.toMenuItem ∧
      ∀ c', (marks.foldl (ClassifiedItem.attach c) m).marks c' =
        if c' = c then m.marks c' ++ marks else m.marks c' := by
  induction marks generalizing m with
  | nil => simp
  | cons mark marks ih =>
    obtain ⟨hitem, hmarks⟩ := ih (m.attach c mark)
    constructor
    · rw [List.foldl_cons, hitem]
      cases c <;> rfl
    · intro c'
      rw [List.foldl_cons, hmarks c']
      cases c <;> cases c' <;> simp [ClassifiedItem.attach, ClassifiedItem.marks]

@[simp] theorem withOwn_toMenuItem (m : ClassifiedItem) : (withOwn rt ids s c m).toMenuItem = m.toMenuItem :=
  (foldl_attach c _ m).1

@[simp] theorem withOwn_marks (c' : Classification) (m : ClassifiedItem) :
    (withOwn rt ids s c m).marks c' = if c' = c then m.marks c' ++ ownMarks rt ids s c m.id else m.marks c' :=
  (foldl_attach c _ m).2 c'

@[simp] theorem classify_toMenuItem (m : ClassifiedItem) : (classify rt ids s m).toMenuItem = m.toMenuItem := by
  simp [classify]

/-- After the three queries an item has what each of them has for it. -/
theorem classify_marks (c : Classification) (m : ClassifiedItem) :
    (classify rt ids s m).marks c = m.marks c ++ ownMarks rt ids s c m.id := by
  cases c <;> simp [classify]

theorem locates_withOwn (h : Locates index (items.map fun m => m.id)) :
    Locates index ((items.map (withOwn rt ids s c)).map fun m => m.id) := by
  have hids : (items.map (withOwn rt ids s c)).map (fun m => m.id) = items.map fun m => m.id := by
    rw [List.map_map]
    exact List.map_congr_left fun m _ => congrArg MenuItem.id (withOwn_toMenuItem m)
  rw [hids]
  exact h

theorem loadMarks_found (hI : ∀ w, I w → w.db = s) (h : Locates index (items.map fun m => m.id)) :
    (loadMarks rt c ids index items).Returns I (· = items.map (withOwn rt ids s c)) := by
  refine .bind ((query_found hI _).mapError _) ?_
  rintro rows rfl
  have hattach : ∀ (m : ClassifiedItem) (mark : Mark), (m.attach c mark).id = m.id := by
    intro m mark
    cases c <;> rfl
  exact returns_done.mpr (distribute_eq_map hattach _ h)

/-- **The index takes every row to its item.** -/
theorem loadClassification_found (hI : ∀ w, I w → w.db = s) (hids : (items.map fun m => m.id).Nodup) :
    (loadClassification rt items ids).Returns I (· = items.map (classify rt ids s)) := by
  unfold loadClassification
  split_ifs with hempty
  · rw [List.isEmpty_iff.mp hempty]
    exact returns_done.mpr rfl
  · have hindex := locates_indexOf hids
    refine .bind (loadMarks_found hI hindex) ?_
    rintro _ rfl
    refine .bind (loadMarks_found hI (locates_withOwn hindex)) ?_
    rintro _ rfl
    refine (loadMarks_found hI (locates_withOwn (locates_withOwn hindex))).mono ?_
    rintro _ rfl
    rw [List.map_map, List.map_map]
    rfl

theorem listMenuItems_found (hI : ∀ w, I w → w.db = s) (hkeys : s.codes.Keys) (restaurantID : UUID)
    (filter : MenuItemFilter) :
    (listMenuItems rt restaurantID filter).Returns I fun items =>
      ∃ rows : List MenuItemRow, rows.Perm (s.codes.listedItems restaurantID filter) ∧
        items = rows.map fun row => classify rt (rows.map MenuItemRow.id) s row.classified := by
  refine .bind ((select_found hI _).mapError _) ?_
  intro rows hrows
  rw [runMenuQuery_statement] at hrows
  have hperm := sortMenu_perm hrows
  have hids : ((rows.map MenuItemRow.classified).map fun m => m.id).Nodup := by
    rw [List.map_map]
    exact ((hperm.map _).nodup_iff).mpr (hkeys.menuItems.sublist (List.filter_sublist.map _))
  refine (loadClassification_found hI hids).mono ?_
  rintro _ rfl
  exact ⟨rows, hperm, List.map_map⟩

theorem listMenuItems_readOnly (restaurantID : UUID) (filter : MenuItemFilter) :
    (listMenuItems rt restaurantID filter).ReadOnly := by
  have hmarks (c : Classification) (index : UUID → Option Nat) (ids : List UUID) (items : List ClassifiedItem) :
      (loadMarks rt c ids index items).Reads fun _ => True :=
    .bind ((query_reads trivial).mapError _) fun _ => .done _
  have hreads : (listMenuItems rt restaurantID filter).Reads fun _ => True := by
    refine .bind ((select_reads trivial).mapError _) fun rows => ?_
    unfold loadClassification
    split_ifs
    · exact .done _
    · exact .bind (hmarks .tag _ _ _) fun _ => .bind (hmarks .allergen _ _ _) fun _ => hmarks .additive _ _ _
  exact hreads.readOnly

end Loading

/-! ## Whose the marks are -/

section Own

variable {rt : Runtime} {ids : List UUID} {s : ReferenceDb} {c : Classification} {itemID : UUID}

theorem links_codes (c : Classification) (s : ReferenceDb) : c.links s.codes = c.links s.rest := by
  cases c <;> rfl

theorem coded_codes (c : Classification) (s : ReferenceDb) :
    c.coded s.codes = (s.rows c).map fun r => (r.id, r.code) := by
  cases c <;> exact List.map_map

/-- A link is to a row of the table. -/
theorem target_mem (hrefs : s.codes.References) {l : MenuItemLinkRow} (hl : l ∈ c.links s.rest) :
    l.targetID ∈ (s.rows c).map ReferenceRow.id := by
  cases c with
  | tag =>
    obtain ⟨t, ht, hid⟩ := hrefs.tagTarget l hl _ rfl
    obtain ⟨r, hr, rfl⟩ := List.mem_map.mp ht
    exact List.mem_map.mpr ⟨r, hr, hid⟩
  | allergen =>
    obtain ⟨a, ha, hid⟩ := hrefs.allergenTarget l hl _ rfl
    obtain ⟨r, hr, rfl⟩ := List.mem_map.mp ha
    exact List.mem_map.mpr ⟨r, hr, hid⟩
  | additive =>
    obtain ⟨a, ha, hid⟩ := hrefs.additiveTarget l hl _ rfl
    obtain ⟨r, hr, rfl⟩ := List.mem_map.mp ha
    exact List.mem_map.mpr ⟨r, hr, hid⟩

/-- The join has one row for each link. -/
theorem joined_ids (hvalid : s.Valid) :
    (joined c ids s).map (fun p => (p.1, p.2.id)) =
      ((c.links s.rest).filter fun l => ids.contains l.menuItemID).map fun l => (l.menuItemID, l.targetID) := by
  have hone : ∀ l ∈ c.links s.rest,
      (((s.rows c).filter fun r => r.id == l.targetID).map fun r => (l.menuItemID, r.mark)).map
        (fun p => (p.1, p.2.id)) = [(l.menuItemID, l.targetID)] := by
    intro l hl
    have hcount := List.count_eq_one_of_mem (hvalid.keys c) (target_mem hvalid.codes.refs hl)
    have hfilter : ((s.rows c).map ReferenceRow.id).filter (· == l.targetID) = [l.targetID] := by
      rw [List.filter_beq, hcount]
      rfl
    rw [List.filter_map] at hfilter
    calc _ = (((s.rows c).filter fun r => r.id == l.targetID).map ReferenceRow.id).map (l.menuItemID, ·) := by
          rw [List.map_map, List.map_map]
          rfl
      _ = [(l.menuItemID, l.targetID)] := congrArg (List.map _) hfilter
  unfold joined
  rw [List.map_flatMap, List.map_eq_flatMap]
  exact List.flatMap_congr fun l hl => hone l (List.mem_of_mem_filter hl)

theorem ownMarks_ids (hvalid : s.Valid) (hid : itemID ∈ ids) :
    ((ownMarks rt ids s c itemID).map Mark.id).Perm (targetsIn (c.links s.rest) itemID) := by
  have hperm := (rowsUnder_perm (sliceStable_perm (markOrder rt) (joined c ids s)) itemID).map Mark.id
  refine hperm.trans (List.Perm.of_eq ?_)
  rw [← rowsUnder_map, joined_ids hvalid]
  unfold rowsUnder targetsIn
  rw [List.filter_map, List.map_map, List.filter_filter]
  show List.map MenuItemLinkRow.targetID _ = List.map MenuItemLinkRow.targetID _
  congr 1
  refine List.filter_congr fun l _ => ?_
  by_cases hl : l.menuItemID = itemID
  · simp [hl, hid]
  · simp [hl]

theorem ownMarks_stored {mark : Mark} (hmark : mark ∈ ownMarks rt ids s c itemID) :
    ∃ r ∈ s.rows c, mark = r.mark := by
  have hrow := (sliceStable_perm (markOrder rt) (joined c ids s)).mem_iff.mp (mem_rowsUnder.mp hmark)
  obtain ⟨l, -, hl⟩ := List.mem_flatMap.mp hrow
  obtain ⟨r, hr, heq⟩ := List.mem_map.mp hl
  exact ⟨r, List.mem_of_mem_filter hr, (congrArg Prod.snd heq).symm⟩

theorem links_nodup (hkeys : s.codes.Keys) : (c.links s.rest).Nodup := by
  cases c with
  | tag => exact hkeys.menuItemTags
  | allergen => exact hkeys.menuItemAllergens
  | additive => exact hkeys.menuItemAdditives

end Own

end MenuFilter

/-! ## What was asked for -/

/-- The item carries what has the code. -/
def ReferenceDb.Carries (s : ReferenceDb) (c : Classification) (itemID : UUID) (code : String) : Prop :=
  ∃ r ∈ s.rows c, r.code = code ∧ { menuItemID := itemID, targetID := r.id } ∈ c.links s.rest

/-- What a filter says of a row: or within a list, and between the criteria -/
structure MenuItemFilter.Wants (filter : MenuItemFilter) (s : ReferenceDb) (restaurantID : UUID)
    (row : MenuItemRow) : Prop where
  restaurant : row.restaurantID = restaurantID
  living : row.deletedAt = none
  category : filter.categoryIDs ≠ [] → ∃ id ∈ filter.categoryIDs, row.categoryID = some id
  available : ∀ b, filter.available = some b → row.available = b
  tags : filter.tagCodes ≠ [] → ∃ code ∈ filter.tagCodes, s.Carries .tag row.id code
  allergens : ∀ code ∈ filter.excludeAllergenCodes, ¬ s.Carries .allergen row.id code
  additives : ∀ code ∈ filter.excludeAdditiveCodes, ¬ s.Carries .additive row.id code

section Wants

variable {s : ReferenceDb} {filter : MenuItemFilter} {restaurantID : UUID} {c : Classification}

theorem carries_iff {itemID : UUID} {codes : List String} :
    c.carries s.codes itemID codes = true ↔ ∃ code ∈ codes, s.Carries c itemID code := by
  unfold Classification.carries ReferenceDb.Carries
  rw [MenuFilter.links_codes, MenuFilter.coded_codes]
  simp only [List.any_eq_true, List.any_map, Bool.and_eq_true, beq_iff_eq, Function.comp_apply, List.contains_iff_mem]
  constructor
  · rintro ⟨l, hl, rfl, r, hr, hid, hcode⟩
    exact ⟨r.code, hcode, r, hr, rfl, hid ▸ hl⟩
  · rintro ⟨code, hcode, r, hr, rfl, hl⟩
    exact ⟨_, hl, rfl, r, hr, rfl, hcode⟩

theorem excluded_iff {itemID : UUID} {codes : List String} :
    (codes.isEmpty || !c.carries s.codes itemID codes) = true ↔ ∀ code ∈ codes, ¬ s.Carries c itemID code := by
  rw [Bool.or_eq_true, List.isEmpty_iff, Bool.not_eq_true', ← Bool.not_eq_true, carries_iff]
  constructor
  · rintro (rfl | hnone) code hcode hcarries
    · cases hcode
    · exact hnone ⟨code, hcode, hcarries⟩
  · intro hnone
    right
    rintro ⟨code, hcode, hcarries⟩
    exact hnone code hcode hcarries

/-- The rows that are selected are those the filter wants. -/
theorem mem_listedItems_iff {row : MenuItemRow} :
    row ∈ s.codes.listedItems restaurantID filter ↔
      row ∈ s.rest.menuItems ∧ filter.Wants s restaurantID row := by
  have hcategory : (filter.categoryIDs.isEmpty || row.categoryID.any filter.categoryIDs.contains) = true ↔
      (filter.categoryIDs ≠ [] → ∃ id ∈ filter.categoryIDs, row.categoryID = some id) := by
    rw [Bool.or_eq_true, List.isEmpty_iff, or_iff_not_imp_left]
    refine imp_congr_right fun _ => ?_
    cases row.categoryID with
    | none => simp
    | some id => simp
  have havailable : (filter.available.all fun available => row.available == available) = true ↔
      ∀ b, filter.available = some b → row.available = b := by
    cases filter.available with
    | none => simp
    | some b => simp
  have htags : (filter.tagCodes.isEmpty || Classification.tag.carries s.codes row.id filter.tagCodes) = true ↔
      (filter.tagCodes ≠ [] → ∃ code ∈ filter.tagCodes, s.Carries .tag row.id code) := by
    rw [Bool.or_eq_true, List.isEmpty_iff, carries_iff, or_iff_not_imp_left]
  unfold Db.listedItems MenuItemFilter.keeps
  rw [List.mem_filter]
  simp only [Bool.and_eq_true, hcategory, havailable, htags, excluded_iff, beq_iff_eq, Option.isNone_iff_eq_none]
  constructor
  · rintro ⟨hmem, ⟨hrestaurant, hliving⟩, ⟨⟨⟨hc, ha⟩, ht⟩, hallergens⟩, hadditives⟩
    exact ⟨hmem, hrestaurant, hliving, hc, ha, ht, hallergens, hadditives⟩
  · rintro ⟨hmem, hwants⟩
    exact ⟨hmem, ⟨hwants.restaurant, hwants.living⟩,
      ⟨⟨⟨hwants.category, hwants.available⟩, hwants.tags⟩, hwants.allergens⟩, hwants.additives⟩

end Wants

/-- The list of a menu: what was asked for, each item once and with its own classification -/
structure MenuFiltered (s : ReferenceDb) (restaurantID : UUID) (filter : MenuItemFilter)
    (items : List ClassifiedItem) : Prop where
  once : (items.map fun m => m.id).Nodup
  onMenu : ∀ m ∈ items, ∃ row ∈ s.rest.menuItems, m.toMenuItem = row.scan
  wanted : ∀ row ∈ s.rest.menuItems, (∃ m ∈ items, m.id = row.id) ↔ filter.Wants s restaurantID row
  own : ∀ m ∈ items, ∀ c, ((m.marks c).map Mark.id).Perm (targetsIn (c.links s.rest) m.id)
  notRepeated : ∀ m ∈ items, ∀ c, ((m.marks c).map Mark.id).Nodup
  stored : ∀ m ∈ items, ∀ c, ∀ mark ∈ m.marks c, ∃ r ∈ s.rows c, mark = r.mark

theorem listMenuItems_filtered {s : ReferenceDb} (hvalid : s.Valid) {I : World ReferenceDb Time → Prop}
    (hI : ∀ w, I w → w.db = s) (rt : Runtime) (restaurantID : UUID) (filter : MenuItemFilter) :
    (MenuFilter.listMenuItems rt restaurantID filter).Returns I (MenuFiltered s restaurantID filter) := by
  refine (MenuFilter.listMenuItems_found hI hvalid.codes.keys restaurantID filter).mono ?_
  rintro _ ⟨rows, hperm, rfl⟩
  have hkeys : (s.rest.menuItems.map MenuItemRow.id).Nodup := hvalid.codes.keys.menuItems
  have hids : (rows.map fun row => (MenuFilter.classify rt (rows.map MenuItemRow.id) s row.classified)).map
      (fun m => m.id) = rows.map MenuItemRow.id := by
    rw [List.map_map]
    exact List.map_congr_left fun row _ => congrArg MenuItem.id (MenuFilter.classify_toMenuItem row.classified)
  have hmarks : ∀ (row : MenuItemRow) (c : Classification),
      (MenuFilter.classify rt (rows.map MenuItemRow.id) s row.classified).marks c =
        MenuFilter.ownMarks rt (rows.map MenuItemRow.id) s c row.id := by
    intro row c
    rw [MenuFilter.classify_marks]
    cases c <;> rfl
  have hown : ∀ row ∈ rows, ∀ c, ((MenuFilter.ownMarks rt (rows.map MenuItemRow.id) s c row.id).map Mark.id).Perm
      (targetsIn (c.links s.rest) row.id) := fun row hrow c =>
    MenuFilter.ownMarks_ids hvalid (List.mem_map_of_mem hrow)
  constructor
  case once =>
    rw [hids]
    exact ((hperm.map _).nodup_iff).mpr (hkeys.sublist (List.filter_sublist.map _))
  case onMenu =>
    intro m hm
    obtain ⟨row, hrow, rfl⟩ := List.mem_map.mp hm
    exact ⟨row, List.mem_of_mem_filter (hperm.mem_iff.mp hrow), MenuFilter.classify_toMenuItem row.classified⟩
  case wanted =>
    intro row hrow
    have hlisted : row ∈ rows ↔ filter.Wants s restaurantID row := by
      rw [hperm.mem_iff, mem_listedItems_iff]
      exact and_iff_right hrow
    rw [← hlisted]
    constructor
    · rintro ⟨m, hm, hid⟩
      have hmem : row.id ∈ rows.map MenuItemRow.id := by
        rw [← hids, ← hid]
        exact List.mem_map_of_mem hm
      obtain ⟨row', hrow', hsame⟩ := List.mem_map.mp hmem
      have hthere := List.mem_of_mem_filter (hperm.mem_iff.mp hrow')
      rwa [← List.inj_on_of_nodup_map hkeys hthere hrow hsame]
    · intro hthere
      exact ⟨_, List.mem_map_of_mem hthere,
        congrArg MenuItem.id (MenuFilter.classify_toMenuItem row.classified)⟩
  case own =>
    intro m hm c
    obtain ⟨row, hrow, rfl⟩ := List.mem_map.mp hm
    rw [hmarks, MenuFilter.classify_toMenuItem]
    exact hown row hrow c
  case notRepeated =>
    intro m hm c
    obtain ⟨row, hrow, rfl⟩ := List.mem_map.mp hm
    rw [hmarks]
    exact (hown row hrow c).nodup_iff.mpr (targetsIn_nodup (MenuFilter.links_nodup hvalid.codes.keys) row.id)
  case stored =>
    intro m hm c mark hmark
    obtain ⟨row, hrow, rfl⟩ := List.mem_map.mp hm
    rw [hmarks] at hmark
    exact MenuFilter.ownMarks_stored hmark

/-- **The menu filter selects exactly what was asked for**, each placeholder being bound to the value meant for
it; and each item that is listed has its own tags, allergens and additives. -/
theorem menuFilter_exact (rt : Runtime) (w : World ReferenceDb Time) (hvalid : w.db.Valid) (restaurantID : UUID)
    (filter : MenuItemFilter) :
    (∀ clause value, (clause, value) ∈ (filter.statement restaurantID).values ↔
      ∃ a, value = some a ∧ filter.Asks restaurantID clause a) ∧
    ((filter.statement restaurantID).values.map Prod.fst).Nodup ∧
    ∀ (ω : ListMenuItemsStmt → Outcome) (items : List ClassifiedItem),
      ((MenuFilter.listMenuItems rt restaurantID filter).run ω w).1 = .ok items →
        MenuFiltered w.db restaurantID filter items := by
  refine ⟨mem_values_statement, clauses_statement_nodup, fun ω items hrun => ?_⟩
  have hreturns := listMenuItems_filtered hvalid (I := (· = w)) (fun _ hw => congrArg World.db hw) rt restaurantID
    filter
  exact hreturns.run (MenuFilter.listMenuItems_readOnly restaurantID filter) rfl hrun

/-- `kebabMenu` with the texts of its tag -/
def kebabReferences : ReferenceDb where
  rows := fun c =>
    if c = .tag then [{ id := ⟨10⟩, code := "beef", text := some "with beef", sortOrder := 1 }] else []
  rest := kebabMenu

/-- What has beef, is to be had, and is free of nuts -/
def beefWithoutNuts : MenuItemFilter :=
  { categoryIDs := [], tagCodes := ["beef"], excludeAllergenCodes := ["nuts"], excludeAdditiveCodes := []
    available := some true }

theorem menuFilter_exact_kebab :
    ∃ items, ((MenuFilter.listMenuItems .ascii ⟨2⟩ beefWithoutNuts).run (fun _ => .ok)
        ⟨kebabReferences, 5000⟩).1 = .ok items ∧ items.map (fun m => m.id) = [⟨4⟩] ∧
      MenuFiltered kebabReferences ⟨2⟩ beefWithoutNuts items := by
  have hvalid : kebabReferences.Valid :=
    { codes := kebabMenu_valid
      keys := fun c => by cases c <;> decide }
  have hids : (((MenuFilter.listMenuItems .ascii ⟨2⟩ beefWithoutNuts).run (fun _ => .ok)
      ⟨kebabReferences, 5000⟩).1.map fun items => items.map fun m => m.id) = .ok [⟨4⟩] := by decide +kernel
  obtain ⟨-, -, hfiltered⟩ := menuFilter_exact .ascii ⟨kebabReferences, 5000⟩ hvalid ⟨2⟩ beefWithoutNuts
  rcases hrun : (MenuFilter.listMenuItems .ascii ⟨2⟩ beefWithoutNuts).run (fun _ => .ok)
    ⟨kebabReferences, 5000⟩ with ⟨x | items, w'⟩
  · rw [hrun] at hids
    cases hids
  · rw [hrun] at hids
    have hok := congrArg Prod.fst hrun
    exact ⟨items, hok, Except.ok.inj hids, hfiltered (fun _ => .ok) items hok⟩

end Doenerstag
