import Doenerstag.Db.FaithfulCopies
import Doenerstag.Db.Orders
import Doenerstag.Lib.Transactions

/-!
# What a duplicate leaves

`DuplicateMenuItem` and `DuplicateCategory` when nobody else edits the menu.

* `copyMenuItem_found` — `copyMenuItem` adds one copy to what its transaction sees.
* `copyItems_found` — the loop over the items of a category adds one for each.
* `ItemDuplicated`, `CategoryDuplicated` — what the two are to leave.
* `duplicates_faithful` — **they leave that, or they fail and have changed nothing.**
-/

namespace Doenerstag

open ReadCommitted Prog

/-! ## The statements -/

section Statements

variable {rt : Runtime} {fresh : FreshCopy} {sourceID actor : UUID} {tx : PgTx} {view : Db} {w : World Db Time}

theorem ItemLinks.insertCopies_eq_ok {t : ItemLinks} {copyID : UUID} {linked : List UUID} {db db' : Db}
    (h : t.insertCopies copyID actor linked db = .ok db') : db' = t.append db (rowsFor copyID linked) := by
  unfold ItemLinks.insertCopies at h
  simp only at h
  split_ifs at h
  exact (Except.ok.inj h).symm

theorem ItemLinks.rows_append {t t' : ItemLinks} (hne : t ≠ t') (new : List MenuItemLinkRow) (db : Db) :
    t.rows (t'.append db new) = t.rows db := by
  match t, t' with
  | classified c, classified c' => cases c <;> cases c' <;> first | rfl | exact absurd rfl hne
  | classified c, availability => cases c <;> rfl
  | availability, classified c => cases c <;> rfl
  | availability, availability => exact absurd rfl hne

theorem ItemLinks.targets_append {t t' : ItemLinks} (hne : t ≠ t') (id : UUID) (new : List MenuItemLinkRow)
    (db : Db) : t.targets id (t'.append db new) = t.targets id db := by
  unfold targets
  rw [rows_append hne]

theorem ItemLinks.rows_setMenuItems (t : ItemLinks) (db : Db) (rows : List MenuItemRow) :
    t.rows (db.setMenuItems rows) = t.rows db := by
  match t with
  | classified c => cases c <;> rfl
  | availability => rfl

/-- Each table gets the links that the item had in it. -/
theorem copyLinks_found {ts : List ItemLinks} (hts : ts.Nodup) (linked : ItemLinks → List UUID)
    (hlinked : ∀ t ∈ ts, t.targets sourceID view = linked t) (hview : tx.view w.db = .ok view) :
    ((copyLinks fresh sourceID actor tx ts).under Outcome.found).Returns (· = w) fun tx' =>
      tx'.view w.db = .ok (ts.foldl (fun db t => t.append db (ItemLinks.rowsFor fresh.id (linked t))) view) := by
  induction ts generalizing tx view with
  | nil => exact returns_done.mpr hview
  | cons t rest ih =>
    rw [copyLinks, under_bind, under_mapError]
    refine .bind ((Tx.exec_found hview _).mapError _) fun tx' hcopied => ?_
    obtain ⟨-, view', hview', hinsert⟩ := hcopied
    have hafter := ItemLinks.insertCopies_eq_ok hinsert
    rw [hlinked t List.mem_cons_self] at hafter
    obtain ⟨hnew, hrest⟩ := List.nodup_cons.mp hts
    have hothers : ∀ t' ∈ rest, t'.targets sourceID view' = linked t' := by
      intro t' ht'
      have hne : t' ≠ t := fun heq => hnew (heq ▸ ht')
      rw [hafter, ItemLinks.targets_append hne]
      exact hlinked t' (List.mem_cons_of_mem _ ht')
    rw [List.foldl_cons, ← hafter]
    exact ih hrest hothers hview'

/-- The copies of modifications, from the `k`-th on -/
def modificationCopies (fresh : FreshCopy) (k : Nat) :
    List MenuItemModificationRow → List MenuItemModificationRow
  | [] => []
  | m :: rest => m.copy (fresh.modification k) fresh.id :: modificationCopies fresh (k + 1) rest

theorem mem_modificationCopies {k : Nat} {ms : List MenuItemModificationRow} {p : MenuItemModificationRow}
    (h : p ∈ modificationCopies fresh k ms) : p.menuItemID = fresh.id ∧ p.deletedAt = none := by
  induction ms generalizing k with
  | nil => cases h
  | cons m rest ih =>
    rcases List.mem_cons.mp h with rfl | h
    · exact ⟨rfl, rfl⟩
    · exact ih h

theorem modificationCopies_content (k : Nat) (ms : List MenuItemModificationRow) :
    (modificationCopies fresh k ms).map MenuItemModificationRow.content =
      ms.map MenuItemModificationRow.content := by
  induction ms generalizing k with
  | nil => rfl
  | cons m rest ih =>
    rw [modificationCopies, List.map_cons, List.map_cons, ih]
    rfl

theorem copyModifications_found (hview : tx.view w.db = .ok view) (k : Nat) (ms : List MenuItemModificationRow) :
    ((copyModifications rt fresh actor tx k ms).under Outcome.found).Returns (· = w) fun tx' =>
      tx'.view w.db = .ok (view.setMenuItemModifications
        (view.menuItemModifications ++ modificationCopies fresh k ms)) := by
  induction ms generalizing tx view k with
  | nil =>
    refine returns_done.mpr ?_
    rw [modificationCopies, List.append_nil]
    exact hview
  | cons m rest ih =>
    rw [copyModifications, under_bind, under_mapError]
    refine .bind ((Tx.insert_found hview _ _).mapError _) fun tx' hinserted => ?_
    obtain ⟨-, view', hview', hinsert⟩ := hinserted
    refine (ih hview' (k + 1)).mono fun tx'' hview'' => ?_
    unfold Db.insertModification at hinsert
    split_ifs at hinsert
    cases hinsert
    rw [hview'', Db.setMenuItemModifications_menuItemModifications, List.append_assoc]
    rfl

theorem Db.listModifications_congr {db db' : Db} (h : db.menuItemModifications = db'.menuItemModifications)
    (id : UUID) : db.listModifications rt id = db'.listModifications rt id := by
  unfold Db.listModifications Db.livingModifications
  rw [h]

/-- The tables after `copyLinks` -/
def Db.linkCopy (db : Db) (copyID : UUID) (linked : ItemLinks → List UUID) : Db :=
  ItemLinks.all.foldl (fun db t => t.append db (ItemLinks.rowsFor copyID (linked t))) db

theorem Db.linkCopy_menuItemModifications (db : Db) (copyID : UUID) (linked : ItemLinks → List UUID) :
    (db.linkCopy copyID linked).menuItemModifications = db.menuItemModifications := by
  cases db
  rfl

/-- What the three parts of `copyMenuItem` add is a copy. -/
theorem Db.addCopy_eq (db : Db) (c : ItemCopy) : db.addCopy c =
    ((db.setMenuItems (db.menuItems ++ [c.row])).linkCopy c.row.id c.links).setMenuItemModifications
      (db.menuItemModifications ++ c.modifications) := by
  cases db
  rfl

/-- What a row that was inserted has passed -/
theorem Db.insertMenuItem_eq_ok {row : MenuItemRow} {db : Db} {r : Db × Option MenuItem}
    (h : Db.insertMenuItem rt row db = .ok r) :
    r.1 = db.setMenuItems (db.menuItems ++ [row]) ∧ db.menuItem row.id = none ∧
      (row.deletedAt = none → db.menuItemNameTaken rt row = false) := by
  unfold Db.insertMenuItem Db.checkMenuItem at h
  split_ifs at h with hthere _ htaken _
  · cases h
  · cases h
  · cases h
  · obtain rfl := (Except.ok.inj h).symm
    refine ⟨rfl, Option.not_isSome_iff_eq_none.mp hthere, fun hliving => ?_⟩
    simpa [hliving] using htaken

/-- The check of the unique index, for a row with a new id -/
theorem Db.name_ne_of_not_taken {row p : MenuItemRow} {db : Db} (hfresh : db.menuItem row.id = none)
    (htaken : db.menuItemNameTaken rt row = false) (hp : p ∈ db.menuItems) (hliving : p.deletedAt = none)
    (hsame : p.restaurantID = row.restaurantID) : rt.lower p.name ≠ rt.lower row.name := by
  have hid : (p.id != row.id) = true := by
    simpa using List.find?_eq_none.mp hfresh p hp
  have hfree := List.any_eq_false.mp htaken p hp
  intro heq
  simp [hid, hliving, hsame, heq] at hfree

end Statements

/-! ## An item -/

section Item

variable {rt : Runtime} {fresh : FreshCopy} {actor : UUID} {categoryID : Option UUID} {name : String}
  {m : MenuItemRow} {tx : PgTx} {view : Db} {w : World Db Time}

/-- **`copyMenuItem` adds a copy of the item.** -/
theorem copyMenuItem_found (hview : tx.view w.db = .ok view) (hm : view.menuItem m.id = some m) :
    ((copyMenuItem rt fresh tx m.id categoryID name actor).under Outcome.found).Returns (· = w) fun tx' =>
      ∃ c : ItemCopy, c.row = m.copy fresh.id categoryID name actor tx.began ∧
        c.modifications = modificationCopies fresh 0 (view.listModifications rt m.id) ∧
        CopiedFrom rt view categoryID m c ∧ tx'.view w.db = .ok (view.addCopy c) := by
  unfold copyMenuItem
  rw [under_bind, under_mapError]
  refine .bind ((Tx.exec_found hview _).mapError _) fun tx₁ hinserted => ?_
  obtain ⟨-, view₁, hview₁, hinsert⟩ := hinserted
  rw [Db.insertItemCopy, hm] at hinsert
  obtain ⟨r, hr, rfl⟩ := exceptMap_eq_ok hinsert
  obtain ⟨hrow, hfresh, htaken⟩ := Db.insertMenuItem_eq_ok hr
  -- the row of the copy is not what is copied from then on
  have hlinked : ∀ t ∈ ItemLinks.all, t.targets m.id r.1 = t.targets m.id view := by
    intro t _
    rw [hrow, ItemLinks.targets, ItemLinks.rows_setMenuItems, ItemLinks.targets]
  rw [under_bind]
  refine .bind (copyLinks_found (by decide) _ hlinked hview₁) fun tx₂ hview₂ => ?_
  have hlinks : tx₂.view w.db = .ok (r.1.linkCopy fresh.id fun t => t.targets m.id view) := hview₂
  rw [under_bind, under_mapError]
  refine .bind ((Tx.query_found hlinks _ _).mapError _) fun ms hms => ?_
  have hold : r.1.menuItemModifications = view.menuItemModifications := by rw [hrow, Db.setMenuItems_menuItemModifications]
  have hlisted : ms = view.listModifications rt m.id :=
    hms.trans (Db.listModifications_congr (by rw [Db.linkCopy_menuItemModifications, hold]) m.id)
  refine (copyModifications_found hlinks 0 ms).mono fun tx₃ hview₃ => ?_
  rw [Db.linkCopy_menuItemModifications, hold, hrow] at hview₃
  refine ⟨{ row := m.copy fresh.id categoryID name actor tx.began, links := fun t => t.targets m.id view
            modifications := modificationCopies fresh 0 ms }, rfl, by rw [hlisted], ?_, ?_⟩
  · refine ⟨⟨_, _, _, _, rfl⟩, hfresh, fun p hp hliving hsame => ?_, fun _ => rfl, fun p hp => ?_, fun p hp => ?_, ?_⟩
    · exact Db.name_ne_of_not_taken hfresh (htaken rfl) hp hliving hsame
    · exact (mem_modificationCopies hp).1
    · exact (mem_modificationCopies hp).2
    · rw [modificationCopies_content, hlisted]
  · rw [Db.addCopy_eq]
    exact hview₃

/-- What `DuplicateMenuItem` is to leave -/
structure ItemDuplicated (rt : Runtime) (before after : Db) (id copyID : UUID) : Prop where
  copied : ∃ m copy, before.livingMenuItem id = some m ∧ copy.id = copyID ∧ before.menuItem copyID = none ∧
    after.menuItems = before.menuItems ++ [copy] ∧ FaithfulItem before after m.categoryID m copy ∧
    FreshNamesOf rt before [copy]
  kept : MenuKept before after
  categories : after.menuCategories = before.menuCategories ∧
    after.menuCategoryAvailability = before.menuCategoryAvailability

theorem ItemLinks.refers {db : Db} (hrefs : db.References) (t : ItemLinks) {l : MenuItemLinkRow}
    (hl : l ∈ t.rows db) : ∃ m ∈ db.menuItems, m.id = l.menuItemID := by
  cases t with
  | classified c =>
    cases c with
    | tag => exact hrefs.tagMenuItem l hl _ rfl
    | allergen => exact hrefs.allergenMenuItem l hl _ rfl
    | additive => exact hrefs.additiveMenuItem l hl _ rfl
  | availability =>
    obtain ⟨a, ha, rfl⟩ := List.mem_map.mp hl
    exact hrefs.itemAvailabilityMenuItem a ha _ rfl

/-- The foreign keys leave nothing loose. -/
theorem Db.References.nothingLoose {db : Db} (hrefs : db.References) : db.NothingLoose := by
  intro id hid
  have hnone : ∀ m ∈ db.menuItems, m.id ≠ id := by
    intro m hm
    simpa using List.find?_eq_none.mp hid m hm
  refine ⟨fun t => ?_, ?_⟩
  · refine List.map_eq_nil_iff.mpr (List.filter_eq_nil_iff.mpr fun l hl heq => ?_)
    obtain ⟨m, hm, hid⟩ := t.refers hrefs hl
    exact hnone m hm (hid.trans (beq_iff_eq.mp heq))
  · refine List.filter_eq_nil_iff.mpr fun p hp heq => ?_
    obtain ⟨m, hm, hid⟩ := hrefs.modificationMenuItem p hp _ rfl
    exact hnone m hm (hid.trans (beq_iff_eq.mp heq))

theorem stageItemDuplicate_found (hvalid : w.db.Valid) (id : UUID) (label : String) :
    ((stageItemDuplicate rt fresh id label actor).under Outcome.found).Returns (· = w) fun tx =>
      ∃ view, tx.view w.db = .ok view ∧ ItemDuplicated rt w.db view id fresh.id := by
  unfold stageItemDuplicate
  rw [under_bind, under_mapError]
  refine .bind ((begin_found _).mapError _) fun tx hbegin => ?_
  obtain ⟨-, hview⟩ := hbegin
  rw [under_bind, under_mapError]
  refine .bind ((Tx.queryRow_found hview _ _).mapError _) fun m hm => ?_
  have hthere : w.db.menuItem id = some m := (Option.filter_eq_some_iff.mp hm).1
  obtain rfl := Db.menuItem_id _ hthere
  rw [under_bind]
  refine .bind (.trivially _) fun taken _ => ?_
  rw [under_bind]
  refine .bind (.trivially _) fun named _ => ?_
  rw [under_within]
  refine ((copyMenuItem_found hview hthere).within _).mono fun tx' hcopied => ?_
  obtain ⟨c, hrow, -, hcopy, hview'⟩ := hcopied
  have hid : c.row.id = fresh.id := congrArg MenuItemRow.id hrow
  have hfaithful := hcopy.faithful hvalid.refs.nothingLoose (.refl _)
  have hnames := (CopiedAll.cons hcopy (.nil _)).names
  exact ⟨_, hview', ⟨m, c.row, hm, hid, hid ▸ hcopy.fresh, rfl, hfaithful, hnames⟩, hcopy.kept, rfl, rfl⟩

end Item

/-! ## A category -/

/-- A row of `menu_category` after the call has what another had before it, under a name of its own. -/
structure FaithfulCategory (rt : Runtime) (before after : Db) (c copy : MenuCategoryRow) : Prop where
  columns : ∃ id name, copy = { c with id, name, deletedAt := none }
  added : after.menuCategories = before.menuCategories ++ [copy]
  filters : after.categoryFilterIDs copy.id = before.categoryFilterIDs c.id
  otherFilters : ∀ id, id ≠ copy.id → after.categoryFilterIDs id = before.categoryFilterIDs id
  free : ∀ p ∈ before.menuCategories, p.deletedAt = none → p.restaurantID = copy.restaurantID →
    rt.lower p.name ≠ rt.lower copy.name

/-- What `DuplicateCategory` is to leave -/
structure CategoryDuplicated (rt : Runtime) (before after : Db) (id copyID : UUID) : Prop where
  category : ∃ c ∈ before.menuCategories, ∃ copy, c.id = id ∧ c.deletedAt = none ∧ copy.id = copyID ∧
    (∀ p ∈ before.menuCategories, p.id ≠ copyID) ∧ FaithfulCategory rt before after c copy
  items : ∃ items copies, items.Perm (before.livingItemsOf id) ∧ sortMenu rt (before.livingItemsOf id) = .ok items ∧
    after.menuItems = before.menuItems ++ copies ∧ (copies.map MenuItemRow.id).Nodup ∧
    (∀ copy ∈ copies, before.menuItem copy.id = none) ∧
    List.Forall₂ (FaithfulItem before after (some copyID)) items copies ∧ FreshNamesOf rt before copies
  kept : MenuKept before after

section Category

variable {rt : Runtime} {actor copyID : UUID} {tx : PgTx} {db db' view : Db} {w : World Db Time}

/-- **The loop adds a copy of each of the items.** -/
theorem copyItems_found {fresh : FreshCategory} {label : String} (hview : tx.view w.db = .ok view)
    (taken : Finset String) (k : Nat) (items : List MenuItemRow)
    (hitems : ∀ m ∈ items, view.menuItem m.id = some m) :
    ((copyItems rt fresh label actor tx taken k items).under Outcome.found).Returns (· = w) fun tx' =>
      ∃ copies after, CopiedAll rt (some fresh.id) view items copies after ∧ tx'.view w.db = .ok after := by
  induction items generalizing tx view taken k with
  | nil => exact returns_done.mpr ⟨[], view, .nil view, hview⟩
  | cons m rest ih =>
    rw [copyItems, under_bind]
    refine .bind (.trivially _) fun named _ => ?_
    rw [under_bind, under_within]
    refine .bind ((copyMenuItem_found hview (hitems m List.mem_cons_self)).within _) fun tx' hcopied => ?_
    obtain ⟨c, -, -, hcopy, hview'⟩ := hcopied
    have hthere : ∀ p ∈ rest, (view.addCopy c).menuItem p.id = some p :=
      fun p hp => hcopy.kept.menuItem (hitems p (List.mem_cons_of_mem _ hp))
    refine (ih hview' named.2 (k + 1) hthere).mono fun tx'' hrest => ?_
    obtain ⟨copies, after, hcopies, hview''⟩ := hrest
    exact ⟨c :: copies, after, .cons hcopy hcopies, hview''⟩

/-- What a category that was inserted has passed -/
theorem Db.insertCategory_eq_ok {row : MenuCategoryRow} (h : Db.insertCategory rt row actor db = .ok db') :
    db' = db.setMenuCategories (db.menuCategories ++ [row]) ∧ (∀ p ∈ db.menuCategories, p.id ≠ row.id) ∧
      ∀ p ∈ db.menuCategories, p.deletedAt = none → p.restaurantID = row.restaurantID →
        rt.lower p.name ≠ rt.lower row.name := by
  unfold Db.insertCategory at h
  split_ifs at h with _ hclash _
  simp only [Bool.or_eq_true, List.any_eq_true, not_or, not_exists, not_and] at hclash
  refine ⟨(Except.ok.inj h).symm, fun p hp hid => ?_, fun p hp hliving hsame hname => ?_⟩
  · exact hclash.1 p hp (beq_iff_eq.mpr hid)
  · exact hclash.2 p hp (by simp [hliving, hsame, hname])

/-- The rows of `menu_category_availability` for a copy -/
def categoryLinksFor (copyID : UUID) (filters : List UUID) : List MenuCategoryAvailabilityRow :=
  filters.map fun id => { categoryID := copyID, filterID := id }

theorem Db.copyCategoryAvailability_eq_ok {filters : List UUID}
    (h : Db.copyCategoryAvailability copyID actor filters db = .ok db') :
    db' = { db with
      menuCategoryAvailability := db.menuCategoryAvailability ++ categoryLinksFor copyID filters } := by
  unfold Db.copyCategoryAvailability at h
  simp only at h
  split_ifs at h
  exact (Except.ok.inj h).symm

/-- The copy gets the filters, and no other category does. -/
theorem categoryFilterIDs_copied {filters : List UUID} {before after : Db}
    (hnone : ∀ a ∈ before.menuCategoryAvailability, a.categoryID ≠ copyID)
    (hafter : after.menuCategoryAvailability =
      before.menuCategoryAvailability ++ categoryLinksFor copyID filters) :
    after.categoryFilterIDs copyID = filters ∧
      ∀ id, id ≠ copyID → after.categoryFilterIDs id = before.categoryFilterIDs id := by
  have hsplit : ∀ id, after.categoryFilterIDs id = before.categoryFilterIDs id ++
      ((categoryLinksFor copyID filters).filter fun a => a.categoryID == id).map
        MenuCategoryAvailabilityRow.filterID := by
    intro id
    unfold Db.categoryFilterIDs
    rw [hafter, List.filter_append, List.map_append]
  constructor
  · have hold : before.categoryFilterIDs copyID = [] := by
      refine List.map_eq_nil_iff.mpr (List.filter_eq_nil_iff.mpr fun a ha heq => ?_)
      exact hnone a ha (beq_iff_eq.mp heq)
    have hall : (categoryLinksFor copyID filters).filter (fun a => a.categoryID == copyID) =
        categoryLinksFor copyID filters := by
      rw [List.filter_eq_self]
      intro a ha
      obtain ⟨id, -, rfl⟩ := List.mem_map.mp ha
      exact beq_self_eq_true _
    rw [hsplit, hold, hall, List.nil_append, categoryLinksFor, List.map_map]
    exact List.map_id _
  · intro id hother
    have hnew : (categoryLinksFor copyID filters).filter (fun a => a.categoryID == id) = [] := by
      rw [List.filter_eq_nil_iff]
      intro a ha heq
      obtain ⟨f, -, rfl⟩ := List.mem_map.mp ha
      exact hother (beq_iff_eq.mp heq).symm
    rw [hsplit, hnew, List.map_nil, List.append_nil]

/-- The tables with a category more, and with its filters -/
def Db.addCategory (db : Db) (row : MenuCategoryRow) (filters : List UUID) : Db :=
  { db with
    menuCategories := db.menuCategories ++ [row]
    menuCategoryAvailability := db.menuCategoryAvailability ++ categoryLinksFor row.id filters }

theorem itemKept_addCategory (row : MenuCategoryRow) (filters : List UUID) (id : UUID) :
    ItemKept db (db.addCategory row filters) id := by
  refine ⟨fun t => ?_, rfl⟩
  match t with
  | .classified c => cases c <;> rfl
  | .availability => rfl

theorem menuKept_addCategory (row : MenuCategoryRow) (filters : List UUID) :
    MenuKept db (db.addCategory row filters) where
  items := List.prefix_rfl
  categories := List.prefix_append _ _
  categoryAvailability := List.prefix_append _ _
  links t := by
    match t with
    | .classified c => cases c <;> exact List.prefix_rfl
    | .availability => exact List.prefix_rfl
  modifications := List.prefix_rfl
  hanging id _ := itemKept_addCategory row filters id
  rest := rfl

theorem nothingLoose_addCategory (row : MenuCategoryRow) (filters : List UUID) (h : db.NothingLoose) :
    (db.addCategory row filters).NothingLoose := by
  intro id hid
  obtain ⟨hlinks, hmodifications⟩ := h id hid
  have hkept : ItemKept db (db.addCategory row filters) id := itemKept_addCategory row filters id
  exact ⟨fun t => (hkept.links t).trans (hlinks t), hkept.modifications.trans hmodifications⟩

/-- A category is copied when its row, its filters and its items have been. -/
theorem categoryDuplicated_of_copied (hvalid : db.Valid) {c : MenuCategoryRow} {copyID : UUID} {name : String}
    {items : List MenuItemRow} {copies : List ItemCopy} {after : Db} (hc : c ∈ db.menuCategories)
    (hliving : c.deletedAt = none) (hfresh : ∀ p ∈ db.menuCategories, p.id ≠ copyID)
    (hfree : ∀ p ∈ db.menuCategories, p.deletedAt = none → p.restaurantID = c.restaurantID →
      rt.lower p.name ≠ rt.lower name)
    (hsorted : sortMenu rt (db.livingItemsOf c.id) = .ok items)
    (hcopies : CopiedAll rt (some copyID)
      (db.addCategory { c with id := copyID, name, deletedAt := none } (db.categoryFilterIDs c.id)) items copies
      after) : CategoryDuplicated rt db after c.id copyID := by
  have hitems := sortMenu_perm hsorted
  obtain ⟨hcategories, havailability⟩ := hcopies.categories
  obtain ⟨hnew, hnodup⟩ := hcopies.fresh
  have hnone : ∀ a ∈ db.menuCategoryAvailability, a.categoryID ≠ copyID := by
    intro a ha heq
    obtain ⟨p, hp, hid⟩ := hvalid.refs.categoryAvailabilityCategory a ha _ rfl
    exact hfresh p hp (hid.trans heq)
  obtain ⟨hfilters, hothers⟩ := categoryFilterIDs_copied hnone havailability
  have hthere : ∀ m ∈ items, (db.menuItem m.id).isSome := by
    intro m hm
    have hmem : m ∈ db.menuItems := List.mem_of_mem_filter (hitems.mem_iff.mp hm)
    rw [Db.menuItem, Tables.find?_key hvalid.keys.menuItems hmem]
    rfl
  have hfaithful := hcopies.faithful (nothingLoose_addCategory _ _ hvalid.refs.nothingLoose) hthere
  have hnames : FreshNamesOf rt db (copies.map ItemCopy.row) := ⟨hcopies.names.free, hcopies.names.distinct⟩
  refine ⟨⟨c, hc, _, rfl, hliving, rfl, hfresh, ⟨_, _, rfl⟩, hcategories, hfilters, hothers, hfree⟩,
    ⟨items, copies.map ItemCopy.row, hitems, hsorted, hcopies.menuItems, ?_, ?_, ?_, hnames⟩,
    (menuKept_addCategory _ _).trans hcopies.kept⟩
  · rw [List.map_map]
    exact hnodup
  · intro copy hcopy
    obtain ⟨c', hc', rfl⟩ := List.mem_map.mp hcopy
    exact hnew c' hc'
  · exact hfaithful.imp fun m copy hm => hm.before (itemKept_addCategory _ _ m.id)

theorem stageCategoryDuplicate_found (hvalid : w.db.Valid) (fresh : FreshCategory) (id : UUID) (label : String) :
    ((stageCategoryDuplicate rt fresh id label actor).under Outcome.found).Returns (· = w) fun tx =>
      ∃ view, tx.view w.db = .ok view ∧ CategoryDuplicated rt w.db view id fresh.id := by
  unfold stageCategoryDuplicate
  rw [under_bind, under_mapError]
  refine .bind ((begin_found _).mapError _) fun tx hbegin => ?_
  obtain ⟨-, hview⟩ := hbegin
  rw [under_bind, under_mapError]
  refine .bind ((Tx.queryRow_found hview _ _).mapError _) fun c hfound => ?_
  have hc : c ∈ w.db.menuCategories := List.mem_of_find?_eq_some hfound
  have hsel := List.find?_some hfound
  simp only [Bool.and_eq_true, beq_iff_eq, Option.isNone_iff_eq_none] at hsel
  obtain ⟨rfl, hliving⟩ := hsel
  rw [under_bind]
  refine .bind (.trivially _) fun taken _ => ?_
  rw [under_bind]
  refine .bind (.trivially _) fun named _ => ?_
  rw [under_bind, under_mapError]
  refine .bind ((Tx.insert_found hview _ _).mapError _) fun tx₁ hinserted => ?_
  obtain ⟨-, view₁, hview₁, hinsert⟩ := hinserted
  obtain ⟨hcreated, hfresh, hfree⟩ := Db.insertCategory_eq_ok hinsert
  rw [under_bind, under_mapError]
  refine .bind ((Tx.exec_found hview₁ _).mapError _) fun tx₂ hfiltered => ?_
  obtain ⟨-, view₂, hview₂, hcopied⟩ := hfiltered
  have hadded := Db.copyCategoryAvailability_eq_ok hcopied
  rw [hcreated] at hadded
  rw [under_bind, under_mapError]
  refine .bind ((Tx.select_found hview₂ _ _).mapError _) fun items hlisted => ?_
  have hsorted : sortMenu rt (w.db.livingItemsOf c.id) = .ok items := by
    rw [hadded] at hlisted
    exact hlisted
  have hitems := sortMenu_perm hsorted
  rw [under_bind]
  refine .bind (.trivially _) fun taken _ => ?_
  have hthere : ∀ m ∈ items, view₂.menuItem m.id = some m := by
    intro m hm
    have hmem : m ∈ w.db.menuItems := List.mem_of_mem_filter (hitems.mem_iff.mp hm)
    rw [hadded]
    exact Tables.find?_key hvalid.keys.menuItems hmem
  refine (copyItems_found hview₂ taken 0 items hthere).mono fun tx₃ hcopies => ?_
  obtain ⟨copies, after, hcopies, hview₃⟩ := hcopies
  rw [hadded] at hcopies
  exact ⟨after, hview₃, categoryDuplicated_of_copied hvalid hc hliving hfresh hfree hsorted hcopies⟩

end Category

/-! ## The calls -/

section Calls

variable (rt : Runtime) (actor : UUID) (tx : PgTx)

theorem copyLinks_reads (fresh : FreshCopy) (sourceID : UUID) (ts : List ItemLinks) :
    (copyLinks fresh sourceID actor tx ts).Reads fun _ => True := by
  induction ts generalizing tx with
  | nil => exact .done tx
  | cons t rest ih => exact .bind (.mapError (Tx.exec_reads tx trivial) _) fun tx' => ih tx'

theorem copyModifications_reads (fresh : FreshCopy) (k : Nat) (ms : List MenuItemModificationRow) :
    (copyModifications rt fresh actor tx k ms).Reads fun _ => True := by
  induction ms generalizing tx k with
  | nil => exact .done tx
  | cons m rest ih => exact .bind (.mapError (Tx.insert_reads tx trivial) _) fun tx' => ih tx' (k + 1)

theorem copyMenuItem_reads (fresh : FreshCopy) (sourceID : UUID) (categoryID : Option UUID) (name : String) :
    (copyMenuItem rt fresh tx sourceID categoryID name actor).Reads fun _ => True := by
  unfold copyMenuItem
  refine .bind (.mapError (Tx.exec_reads tx trivial) _) fun tx => ?_
  refine .bind (copyLinks_reads actor tx fresh sourceID _) fun tx => ?_
  refine .bind (.mapError (Tx.query_reads tx trivial) _) fun ms => ?_
  exact copyModifications_reads rt actor tx fresh 0 ms

theorem nameCopy_reads {ℓ : Type} (base label : String) (taken : Finset String) :
    (nameCopy rt base label taken : DbProgram ℓ _).Reads fun _ => True := by
  unfold nameCopy
  cases copyName rt base label taken (taken.card + 1) with
  | none => exact .fail _
  | some named => exact .done named

theorem stageItemDuplicate_reads (fresh : FreshCopy) (id : UUID) (label : String) :
    (stageItemDuplicate rt fresh id label actor).Reads fun _ => True := by
  unfold stageItemDuplicate
  refine .bind (.mapError (begin_reads trivial) _) fun tx => ?_
  refine .bind (.mapError (Tx.queryRow_reads tx trivial) _) fun item => ?_
  refine .bind (.mapError (Tx.query_reads tx trivial) _) fun taken => ?_
  refine .bind (nameCopy_reads rt item.name label taken) fun named => ?_
  exact .within (copyMenuItem_reads rt actor tx fresh id item.categoryID named.1)

theorem copyItems_reads (fresh : FreshCategory) (label : String) (taken : Finset String) (k : Nat)
    (items : List MenuItemRow) : (copyItems rt fresh label actor tx taken k items).Reads fun _ => True := by
  induction items generalizing tx taken k with
  | nil => exact .done tx
  | cons item rest ih =>
    refine .bind (nameCopy_reads rt item.name label taken) fun named => ?_
    refine .bind (.within (copyMenuItem_reads rt actor tx (fresh.item k) item.id (some fresh.id) named.1)) fun tx' => ?_
    exact ih tx' named.2 (k + 1)

theorem stageCategoryDuplicate_reads (fresh : FreshCategory) (id : UUID) (label : String) :
    (stageCategoryDuplicate rt fresh id label actor).Reads fun _ => True := by
  unfold stageCategoryDuplicate
  refine .bind (.mapError (begin_reads trivial) _) fun tx => ?_
  refine .bind (.mapError (Tx.queryRow_reads tx trivial) _) fun category => ?_
  refine .bind (.mapError (Tx.query_reads tx trivial) _) fun taken => ?_
  refine .bind (nameCopy_reads rt category.name label taken) fun named => ?_
  refine .bind (.mapError (Tx.insert_reads tx trivial) _) fun tx => ?_
  refine .bind (.mapError (Tx.exec_reads tx trivial) _) fun tx => ?_
  refine .bind (.mapError (Tx.select_reads tx trivial) _) fun items => ?_
  refine .bind (.mapError (Tx.query_reads tx trivial) _) fun taken => ?_
  exact copyItems_reads rt actor tx fresh label taken 0 items

/-- A transaction and then its value: it leaves what it has staged, or nothing. -/
theorem run_transaction_value {ℓ β : Type} {stage : DbProgram ℓ PgTx} {P : Db → Prop} {w : World Db Time} (l : ℓ)
    (value : β) (hreads : stage.ReadOnly)
    (hsees : (stage.under Outcome.found).Returns (· = w) fun tx => ∃ view, tx.view w.db = .ok view ∧ P view)
    (ω : ℓ → Outcome) (w' : World Db Time) :
    (∀ b, ((stage >>= fun tx => (tx.commit l).mapError otherError >>= fun _ => pure value).under
      Outcome.found).run ω w = (.ok b, w') → b = value ∧ P w'.db) ∧
    ∀ e, ((stage >>= fun tx => (tx.commit l).mapError otherError >>= fun _ => pure value).under
      Outcome.found).run ω w = (.error e, w') → w' = w := by
  rw [← bind_assoc]
  constructor
  · intro b hrun
    obtain ⟨view, hP, hworld, hvalue⟩ := run_transaction_then hreads hsees
      (steps_done value) hrun
    rw [hworld]
    exact ⟨(Except.ok.inj hvalue).symm, hP⟩
  · intro e hrun
    exact refused_transaction_then (X := fun _ => False) hreads (.done value) (fun h => h) hrun

end Calls

/-- **A duplicate is a faithful copy, or nothing has changed.** -/
theorem duplicates_faithful (rt : Runtime) (w : World Db Time) (hvalid : w.db.Valid) (id : UUID)
    (label : String) (actor : UUID) :
    (∀ (fresh : FreshCopy) (ω : DuplicateItemStmt → Outcome) w',
      (∀ copyID, ((duplicateMenuItem rt fresh id label actor).under Outcome.found).run ω w = (.ok copyID, w') →
        ItemDuplicated rt w.db w'.db id copyID) ∧
      ∀ e, ((duplicateMenuItem rt fresh id label actor).under Outcome.found).run ω w = (.error e, w') → w' = w) ∧
    ∀ (fresh : FreshCategory) (ω : DuplicateCategoryStmt → Outcome) w',
      (∀ copyID, ((duplicateCategory rt fresh id label actor).under Outcome.found).run ω w = (.ok copyID, w') →
        CategoryDuplicated rt w.db w'.db id copyID) ∧
      ∀ e, ((duplicateCategory rt fresh id label actor).under Outcome.found).run ω w = (.error e, w') →
        w' = w := by
  constructor
  · intro fresh ω w'
    obtain ⟨hdone, hfailed⟩ := run_transaction_value DuplicateItemStmt.commit fresh.id
      (stageItemDuplicate_reads rt actor fresh id label).readOnly (stageItemDuplicate_found hvalid id label) ω w'
    refine ⟨fun copyID hrun => ?_, hfailed⟩
    obtain ⟨rfl, hduplicated⟩ := hdone copyID hrun
    exact hduplicated
  · intro fresh ω w'
    obtain ⟨hdone, hfailed⟩ := run_transaction_value DuplicateCategoryStmt.commit fresh.id
      (stageCategoryDuplicate_reads rt actor fresh id label).readOnly
      (stageCategoryDuplicate_found hvalid fresh id label) ω w'
    refine ⟨fun copyID hrun => ?_, hfailed⟩
    obtain ⟨rfl, hduplicated⟩ := hdone copyID hrun
    exact hduplicated

/-! ## A category of kebabs -/

/-- `lunch` with its kebab in a category that is served at noon, and another that has been copied before -/
def kebabMenu : Db :=
  { lunch with
    tags := [{ id := ⟨10⟩, code := "beef" }]
    availabilityFilters := [{ id := ⟨11⟩, restaurantID := ⟨2⟩, name := "noon", onDate := none, weekdays := []
                              startTime := some 660, endTime := some 840, sortOrder := 0 }]
    menuCategories := [{ id := ⟨12⟩, restaurantID := ⟨2⟩, name := "Kebabs", sortOrder := 1, deletedAt := none }]
    menuItems := [{ id := ⟨4⟩, restaurantID := ⟨2⟩, categoryID := some ⟨12⟩, externalID := some "7"
                    name := "Kebab", description := none, imageID := none, priceCents := 500
                    available := true, deletedAt := none, createdAt := 0, updatedAt := 0
                    updatedBy := none },
                  { id := ⟨13⟩, restaurantID := ⟨2⟩, categoryID := some ⟨12⟩, externalID := none
                    name := "Kebab (copy)", description := none, imageID := none, priceCents := 600
                    available := false, deletedAt := none, createdAt := 0, updatedAt := 0
                    updatedBy := none }]
    menuItemTags := [{ menuItemID := ⟨4⟩, targetID := ⟨10⟩ }]
    menuCategoryAvailability := [{ categoryID := ⟨12⟩, filterID := ⟨11⟩ }] }

theorem kebabMenu_valid : kebabMenu.Valid where
  keys := by constructor <;> decide +kernel
  refs := by constructor <;> decide +kernel
  checks := by constructor <;> decide +kernel

theorem duplicates_faithful_kebab :
    (∃ w', ((duplicateMenuItem Runtime.ascii ⟨⟨100⟩, fun k => ⟨101 + k⟩⟩ ⟨4⟩ "copy" ⟨1⟩).under
        Outcome.found).run (fun _ => .ok) ⟨kebabMenu, 5000⟩ = (.ok ⟨100⟩, w') ∧
      ItemDuplicated Runtime.ascii kebabMenu w'.db ⟨4⟩ ⟨100⟩) ∧
    ∃ w', ((duplicateCategory Runtime.ascii ⟨⟨100⟩, fun k => ⟨⟨200 + k⟩, fun j => ⟨300 + 10 * k + j⟩⟩⟩ ⟨12⟩ "copy"
        ⟨1⟩).under Outcome.found).run (fun _ => .ok) ⟨kebabMenu, 5000⟩ = (.ok ⟨100⟩, w') ∧
      CategoryDuplicated Runtime.ascii kebabMenu w'.db ⟨12⟩ ⟨100⟩ := by
  constructor
  · have hok : (((duplicateMenuItem Runtime.ascii ⟨⟨100⟩, fun k => ⟨101 + k⟩⟩ ⟨4⟩ "copy" ⟨1⟩).under
        Outcome.found).run (fun _ => .ok) ⟨kebabMenu, 5000⟩).1 = .ok ⟨100⟩ := by decide +kernel
    refine ⟨_, Prod.ext hok rfl, ?_⟩
    exact ((duplicates_faithful Runtime.ascii ⟨kebabMenu, 5000⟩ kebabMenu_valid ⟨4⟩ "copy" ⟨1⟩).1 _ (fun _ => .ok)
      _).1 ⟨100⟩ (Prod.ext hok rfl)
  · have hok : (((duplicateCategory Runtime.ascii ⟨⟨100⟩, fun k => ⟨⟨200 + k⟩, fun j => ⟨300 + 10 * k + j⟩⟩⟩ ⟨12⟩
        "copy" ⟨1⟩).under Outcome.found).run (fun _ => .ok) ⟨kebabMenu, 5000⟩).1 = .ok ⟨100⟩ := by decide +kernel
    refine ⟨_, Prod.ext hok rfl, ?_⟩
    exact ((duplicates_faithful Runtime.ascii ⟨kebabMenu, 5000⟩ kebabMenu_valid ⟨12⟩ "copy" ⟨1⟩).2 _ (fun _ => .ok)
      _).1 ⟨100⟩ (Prod.ext hok rfl)

end Doenerstag
