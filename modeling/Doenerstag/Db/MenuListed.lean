import Doenerstag.Db.CopiesComplete
import Doenerstag.Db.MenuListing

/-!
# Menus that can be listed

The three queries that sort by `menuItemOrder`: the listing of a menu, with a filter or without one, and that of
the items of a category when it is copied.

* `CategoryCopyable` — what is promised where a category is copied; but for the order, the database then accepts
  every statement.
* `duplicateCategory_answered_iff` — so a category is copied exactly when its items can be sorted.
* `menuAlwaysListed_iff` — **all three complete exactly when the numbers of the items they sort fit a `bigint`.**
* `longNumber_notListed` — what the schema and the API admit need not.
-/

namespace Doenerstag

open ReadCommitted Prog

/-! ## A category -/

/-- What the schema says of a menu besides `Db.Valid` -/
structure Db.MenuValid (rt : Runtime) (db : Db) : Prop where
  shapes : ∀ m ∈ db.menuItems, m.externalID.all externalIDShape = true
  modificationNames : ∀ p ∈ db.menuItemModifications, 1 ≤ p.name.length ∧ p.name.length ≤ 200
  modificationNameKeys : ∀ id, (db.livingModifications id).Pairwise fun p q => rt.lower p.name ≠ rt.lower q.name
  availabilityKeys : db.menuItemAvailability.Nodup
  categoryAvailabilityKeys : db.menuCategoryAvailability.Nodup

section Category

variable {rt : Runtime} {fresh : FreshCategory} {actor : UUID} {label : String} {db : Db} {c : MenuCategoryRow}
  {w : World Db Time}

theorem Db.insertCategory_eq (row : MenuCategoryRow) (hlength : 1 ≤ row.name.length ∧ row.name.length ≤ 200)
    (hid : ∀ p ∈ db.menuCategories, p.id ≠ row.id)
    (hname : ∀ p ∈ db.menuCategories, p.deletedAt = none → p.restaurantID = row.restaurantID →
      rt.lower p.name ≠ rt.lower row.name) (hrestaurant : ∃ r ∈ db.restaurants, r.id = row.restaurantID)
    (hactor : (db.userByID actor).isSome) :
    Db.insertCategory rt row actor db = .ok (db.setMenuCategories (db.menuCategories ++ [row])) := by
  have hids : (db.menuCategories.any fun p => p.id == row.id) = false := Tables.any_key_eq_false hid
  have hnames : (db.menuCategories.any fun p => p.restaurantID == row.restaurantID && p.deletedAt.isNone &&
      rt.lower p.name == rt.lower row.name) = false := by
    rw [List.any_eq_false]
    intro p hp hclash
    simp only [Bool.and_eq_true, beq_iff_eq, Option.isNone_iff_eq_none] at hclash
    exact hname p hp hclash.1.2 hclash.1.1 hclash.2
  have hthere : (db.restaurants.any fun r => r.id == row.restaurantID) = true := Tables.any_key hrestaurant
  have hshort : (decide (row.name.length < 1) || decide (200 < row.name.length)) = false := by
    simp only [Bool.or_eq_false_iff, decide_eq_false_iff_not]
    omega
  unfold Db.insertCategory
  rw [hshort, hids, hnames, hthere, Option.isNone_eq_false_iff.mpr hactor]
  rfl

theorem Db.copyCategoryAvailability_eq (db : Db) {copyID : UUID} {filters : List UUID}
    (hnew : ∀ a ∈ db.menuCategoryAvailability, a.categoryID ≠ copyID) (hkeys : filters.Nodup)
    (hthere : ∃ c ∈ db.menuCategories, c.id = copyID)
    (hknown : ∀ id ∈ filters, ∃ f ∈ db.availabilityFilters, f.id = id) (hactor : (db.userByID actor).isSome) :
    Db.copyCategoryAvailability copyID actor filters db = .ok { db with
      menuCategoryAvailability := db.menuCategoryAvailability ++ categoryLinksFor copyID filters } := by
  have hfree : (categoryLinksFor copyID filters).any db.menuCategoryAvailability.contains = false := by
    rw [List.any_eq_false]
    intro a ha hmem
    obtain ⟨id, -, rfl⟩ := List.mem_map.mp ha
    exact hnew _ (List.contains_iff_mem.mp hmem) rfl
  have hnodup : (categoryLinksFor copyID filters).Nodup :=
    hkeys.map fun a b hab => congrArg MenuCategoryAvailabilityRow.filterID hab
  have hrefers : filters.all (fun id => (db.menuCategories.any fun c => c.id == copyID) &&
      (db.availabilityFilters.any fun f => f.id == id) && (db.userByID actor).isSome) = true := by
    rw [List.all_eq_true]
    intro id hid
    rw [Tables.any_key hthere, Tables.any_key (hknown id hid), hactor]
    rfl
  unfold categoryLinksFor at hfree hnodup
  unfold Db.copyCategoryAvailability
  simp [hfree, hnodup, hrefers, categoryLinksFor]

/-- What a link of an item is to is there. -/
theorem ItemLinks.known_target (hrefs : db.References) (t : ItemLinks) {l : MenuItemLinkRow} (hl : l ∈ t.rows db) :
    t.known db l.targetID = true := by
  cases t with
  | classified c =>
    cases c with
    | tag => exact Tables.any_key (hrefs.tagTarget l hl _ rfl)
    | allergen => exact Tables.any_key (hrefs.allergenTarget l hl _ rfl)
    | additive => exact Tables.any_key (hrefs.additiveTarget l hl _ rfl)
  | availability =>
    obtain ⟨a, ha, rfl⟩ := List.mem_map.mp hl
    exact Tables.any_key (hrefs.itemAvailabilityFilter a ha _ rfl)

/-- The links of an item are to different things. -/
theorem ItemLinks.targets_nodup (hkeys : db.Keys) (havailability : db.menuItemAvailability.Nodup) (t : ItemLinks)
    (itemID : UUID) : (t.targets itemID db).Nodup := by
  have hrows : (t.rows db).Nodup := by
    cases t with
    | classified c =>
      cases c with
      | tag => exact hkeys.menuItemTags
      | allergen => exact hkeys.menuItemAllergens
      | additive => exact hkeys.menuItemAdditives
    | availability =>
      refine havailability.map fun a b hab => ?_
      cases a
      cases b
      cases hab
      rfl
  exact targetsIn_nodup hrows itemID

/-- The items of a category are on the menu that the category is on. -/
theorem restaurant_of_livingItems (hvalid : db.Valid) (hc : c ∈ db.menuCategories) {m : MenuItemRow}
    (hm : m ∈ db.livingItemsOf c.id) : m ∈ db.menuItems ∧ m.restaurantID = c.restaurantID := by
  obtain ⟨hmem, hsel⟩ := List.mem_filter.mp hm
  simp only [Bool.and_eq_true, beq_iff_eq] at hsel
  have hcategory : m.category = some (m.restaurantID, c.id) := by
    rw [MenuItemRow.category, hsel.1]
    rfl
  obtain ⟨c', hc', hkey⟩ := hvalid.refs.menuItemCategory m hmem _ hcategory
  have hid : c'.id = c.id := congrArg Prod.snd hkey
  have hsame : c' = c := List.inj_on_of_nodup_map hvalid.keys.menuCategories hc' hc hid
  rw [hsame] at hkey
  exact ⟨hmem, (congrArg Prod.fst hkey).symm⟩

/-- **The living items of a category can be copied to its copy.** -/
theorem copyable_addCategory (hvalid : db.Valid) (hmenu : db.MenuValid rt) (hunused : fresh.Unused db)
    (hc : c ∈ db.menuCategories) (hactor : (db.userByID actor).isSome) {m : MenuItemRow}
    (hm : m ∈ db.livingItemsOf c.id) (name : String) (filters : List UUID) (j : Nat) :
    Copyable rt (db.addCategory { c with id := fresh.id, name, deletedAt := none } filters) actor fresh.id
      (fresh.item j) m := by
  obtain ⟨hmem, hsame⟩ := restaurant_of_livingItems hvalid hc hm
  have hkept : ∀ id, ItemKept db (db.addCategory { c with id := fresh.id, name, deletedAt := none } filters) id :=
    fun id => itemKept_addCategory { c with id := fresh.id, name, deletedAt := none } filters id
  constructor
  case there => exact Tables.find?_key hvalid.keys.menuItems hmem
  case price => exact (hvalid.checks.menuItems m hmem).2
  case shape => exact hmenu.shapes m hmem
  case restaurant => exact hvalid.refs.menuItemRestaurant m hmem _ rfl
  case category => exact ⟨_, List.mem_append_right _ List.mem_cons_self, hsame.symm, rfl⟩
  case image => exact fun id hid => hvalid.refs.menuItemImage m hmem id hid
  case actor => exact hactor
  case linkKeys =>
    intro t
    rw [(hkept m.id).links t]
    exact t.targets_nodup hvalid.keys hmenu.availabilityKeys m.id
  case linkTargets =>
    intro t id hid
    rw [(hkept m.id).links t] at hid
    obtain ⟨l, hl, rfl⟩ := List.mem_map.mp hid
    have hknown := t.known_target hvalid.refs (List.mem_of_mem_filter hl)
    match t with
    | .classified c => cases c <;> exact hknown
    | .availability => exact hknown
  case names => exact fun p hp => hmenu.modificationNames p (List.mem_of_mem_filter hp)
  case nameKeys => exact hmenu.modificationNameKeys m.id
  case freshItem => exact hunused.items j
  case freshModifications => exact fun p hp k => hunused.modifications p hp j k
  case distinct => exact fun a b hab => (hunused.distinctModifications j j a b hab).2

theorem livingCategory_found (hkeys : (db.menuCategories.map MenuCategoryRow.id).Nodup) (hc : c ∈ db.menuCategories)
    (hliving : c.deletedAt = none) :
    (db.menuCategories.find? fun p => p.id == c.id && p.deletedAt.isNone) = some c := by
  have hsome : (db.menuCategories.find? fun p => p.id == c.id && p.deletedAt.isNone).isSome :=
    List.find?_isSome.mpr ⟨c, hc, by simp [hliving]⟩
  obtain ⟨p, hp⟩ := Option.isSome_iff_exists.mp hsome
  have hsel := List.find?_some hp
  simp only [Bool.and_eq_true, beq_iff_eq] at hsel
  rw [hp, List.inj_on_of_nodup_map hkeys (List.mem_of_find?_eq_some hp) hc hsel.1]

theorem card_takenItemNames_le (rt : Runtime) (db : Db) (restaurantID : UUID) :
    (db.takenItemNames rt restaurantID).card ≤ db.menuItems.length := by
  refine (List.toFinset_card_le _).trans ?_
  rw [List.length_map]
  exact List.length_filter_le _ _

theorem card_takenCategoryNames_le (rt : Runtime) (db : Db) (restaurantID : UUID) :
    (db.takenCategoryNames rt restaurantID).card ≤ db.menuCategories.length := by
  refine (List.toFinset_card_le _).trans ?_
  rw [List.length_map]
  exact List.length_filter_le _ _

theorem mem_takenItemNames (rt : Runtime) {p : MenuItemRow} (hp : p ∈ db.menuItems) (hliving : p.deletedAt = none) :
    rt.lower p.name ∈ db.takenItemNames rt p.restaurantID := by
  refine List.mem_toFinset.mpr (List.mem_map.mpr ⟨p, List.mem_filter.mpr ⟨hp, ?_⟩, rfl⟩)
  rw [hliving, beq_self_eq_true]
  rfl

theorem mem_takenCategoryNames (rt : Runtime) {p : MenuCategoryRow} (hp : p ∈ db.menuCategories) (hliving : p.deletedAt = none) :
    rt.lower p.name ∈ db.takenCategoryNames rt p.restaurantID := by
  refine List.mem_toFinset.mpr (List.mem_map.mpr ⟨p, List.mem_filter.mpr ⟨hp, ?_⟩, rfl⟩)
  rw [hliving, beq_self_eq_true]
  rfl

/-- The filters of a category go with it. -/
theorem copyCategoryAvailability_accepted (hvalid : db.Valid) (hmenu : db.MenuValid rt) (hunused : fresh.Unused db)
    (hactor : (db.userByID actor).isSome) (row : MenuCategoryRow) (hrow : row.id = fresh.id) (id : UUID) :
    Db.copyCategoryAvailability fresh.id actor (db.categoryFilterIDs id)
      (db.setMenuCategories (db.menuCategories ++ [row])) = .ok (db.addCategory row (db.categoryFilterIDs id)) := by
  have hnew : ∀ a ∈ db.menuCategoryAvailability, a.categoryID ≠ fresh.id := by
    intro a ha heq
    obtain ⟨p, hp, hid⟩ := hvalid.refs.categoryAvailabilityCategory a ha _ rfl
    exact hunused.category p hp (hid.trans heq)
  have hkeys : (db.categoryFilterIDs id).Nodup := by
    refine (List.nodup_map_iff_inj_on (hmenu.categoryAvailabilityKeys.filter _)).mpr fun a ha a' ha' heq => ?_
    have hid := beq_iff_eq.mp (List.mem_filter.mp ha).2
    have hid' := beq_iff_eq.mp (List.mem_filter.mp ha').2
    cases a
    cases a'
    simp_all
  have hknown : ∀ filter ∈ db.categoryFilterIDs id, ∃ f ∈ db.availabilityFilters, f.id = filter := by
    intro filter hfilter
    obtain ⟨a, ha, rfl⟩ := List.mem_map.mp hfilter
    exact hvalid.refs.categoryAvailabilityFilter a (List.mem_of_mem_filter ha) _ rfl
  have haccepted := Db.copyCategoryAvailability_eq (db.setMenuCategories (db.menuCategories ++ [row])) hnew hkeys
    ⟨row, List.mem_append_right _ List.mem_cons_self, hrow⟩ hknown hactor
  rw [haccepted, ← hrow]
  rfl

/-- What is promised where a category is copied: by the schema, by `uuid.NewV7`, and by the handler, which has
found the category and the user and has bounded the label -/
structure CategoryCopyable (rt : Runtime) (db : Db) (fresh : FreshCategory) (label : String) (actor : UUID)
    (c : MenuCategoryRow) : Prop where
  valid : db.Valid
  menu : db.MenuValid rt
  unused : fresh.Unused db
  lower : rt.LowersAlike
  label : label.length ≤ 32
  actor : (db.userByID actor).isSome
  there : c ∈ db.menuCategories
  living : c.deletedAt = none
  fewCategories : db.menuCategories.length < 2 ^ 31
  fewItems : db.menuItems.length < 2 ^ 30

/-- **A living category is copied up to the commit**, once its items can be sorted. -/
theorem stageCategoryDuplicate_answered {ω : DuplicateCategoryStmt → Outcome} (hω : ∀ l, ω l = .ok)
    (h : CategoryCopyable rt w.db fresh label actor c) {items : List MenuItemRow}
    (hsorted : sortMenu rt (w.db.livingItemsOf c.id) = .ok items) :
    (stageCategoryDuplicate rt fresh c.id label actor).Answered ω w := by
  obtain ⟨hvalid, hmenu, hunused, hlower, hlabel, hactor, hc, hliving, hfewCategories, hfewItems⟩ := h
  unfold stageCategoryDuplicate
  refine (answered_congr (run_bind_of_ok (run_mapError_of_ok (run_begin (hω _))))).mpr ?_
  have hview : (Tx.mk w.now [] : PgTx).view w.db = .ok w.db := Tx.view_nil _ _
  have hfound := livingCategory_found hvalid.keys.menuCategories hc hliving
  refine (answered_congr (run_bind_of_ok (run_mapError_of_ok (Tx.run_queryRow (hω _) hview hfound)))).mpr ?_
  refine (answered_congr (run_bind_of_ok (run_mapError_of_ok (Tx.run_query (hω _) hview)))).mpr ?_
  -- the category, under a name of its own
  have htakenCategories : (w.db.takenCategoryNames rt c.restaurantID).card < 2 ^ 31 :=
    Nat.lt_of_le_of_lt (card_takenCategoryNames_le rt w.db _) hfewCategories
  obtain ⟨name, hlength, hfree, hname⟩ :=
    nameCopy_eq (ℓ := DuplicateCategoryStmt) hlower hlabel c.name htakenCategories
  have hnew : ∀ p ∈ w.db.menuCategories, p.deletedAt = none → p.restaurantID = c.restaurantID →
      rt.lower p.name ≠ rt.lower name := by
    intro p hp hpliving hsame heq
    have hmem := mem_takenCategoryNames rt hp hpliving
    rw [hsame, heq] at hmem
    exact hfree hmem
  have hrestaurant := hvalid.refs.categoryRestaurant c hc _ rfl
  have hinsert := Db.insertCategory_eq { c with id := fresh.id, name, deletedAt := none } hlength
    hunused.category hnew hrestaurant hactor
  rw [hname, pure_bind]
  obtain ⟨hrun₁, hview₁⟩ := Tx.run_insert (l := DuplicateCategoryStmt.create) (hω _) hview hinsert
  refine (answered_congr (run_bind_of_ok (run_mapError_of_ok hrun₁))).mpr ?_
  -- its filters
  have hcopied := copyCategoryAvailability_accepted hvalid hmenu hunused hactor
    { c with id := fresh.id, name, deletedAt := none } rfl c.id
  obtain ⟨hrun₂, hview₂⟩ := Tx.run_exec (l := DuplicateCategoryStmt.availability) (hω _) hview₁
    (u := fun view => Db.copyCategoryAvailability fresh.id actor (view.categoryFilterIDs c.id)) hcopied
  refine (answered_congr (run_bind_of_ok (run_mapError_of_ok hrun₂))).mpr ?_
  -- its items
  have hlisted : (w.db.addCategory { c with id := fresh.id, name, deletedAt := none }
      (w.db.categoryFilterIDs c.id)).categoryItems rt c.id = .ok items := hsorted
  refine (answered_congr (run_bind_of_ok (run_mapError_of_ok (Tx.run_select (hω _) hview₂ hlisted)))).mpr ?_
  refine (answered_congr (run_bind_of_ok (run_mapError_of_ok (Tx.run_query (hω _) hview₂)))).mpr ?_
  have hitems : ∀ m ∈ items, m ∈ w.db.livingItemsOf c.id := fun m hm => (sortMenu_perm hsorted).mem_iff.mp hm
  have hfew : items.length ≤ w.db.menuItems.length := by
    rw [(sortMenu_perm hsorted).length_eq]
    exact List.length_filter_le _ _
  have htakenItems := card_takenItemNames_le rt w.db c.restaurantID
  refine copyItems_answered hω hlower hlabel hunused 0 items hview₂ (nothingLoose_addCategory _ _ hvalid.refs.nothingLoose)
    (fun m hm => (restaurant_of_livingItems hvalid hc (hitems m hm)).2)
    (fun m hm j _ => copyable_addCategory hvalid hmenu hunused hc hactor (hitems m hm) name _ j) ?_ ?_
  · intro p hp hpliving hsame
    have hmem := mem_takenItemNames rt hp hpliving
    rw [hsame] at hmem
    exact hmem
  · show (w.db.takenItemNames rt c.restaurantID).card + items.length < 2 ^ 31
    omega

/-- A category is copied exactly when its items can be sorted. -/
theorem duplicateCategory_answered_iff {ω : DuplicateCategoryStmt → Outcome} (hω : ∀ l, ω l = .ok)
    (h : CategoryCopyable rt w.db fresh label actor c) :
    (duplicateCategory rt fresh c.id label actor).Answered ω w ↔
      ∀ m ∈ w.db.livingItemsOf c.id, NumberFits m.externalID := by
  have hreads := (stageCategoryDuplicate_reads rt actor fresh c.id label).readOnly
  have hsees : ((stageCategoryDuplicate rt fresh c.id label actor).under Outcome.found).Returns (· = w) fun tx =>
      ∃ view, tx.view w.db = .ok view ∧ CategoryDuplicated rt w.db view c.id fresh.id :=
    stageCategoryDuplicate_found h.valid fresh c.id label
  rw [← sortMenu_ok_iff rt]
  constructor
  · intro hanswered
    obtain ⟨tx, htx, -⟩ := answered_bind.mp hanswered
    have hstaged : (((stageCategoryDuplicate rt fresh c.id label actor).under Outcome.found).run ω w).1 = .ok tx := by
      rw [run_under_found hω]
      exact htx
    obtain ⟨view, -, hduplicated⟩ :=
      hsees.run (Steps.under (P := fun _ s s' => s' = s) hreads _) rfl hstaged
    obtain ⟨items, copies, -, hsorted, -⟩ := hduplicated.items
    exact ⟨items, hsorted⟩
  · rintro ⟨items, hsorted⟩
    refine answered_bind_found hω hreads (stageCategoryDuplicate_answered hω h hsorted) hsees fun tx hstaged => ?_
    obtain ⟨view, hview, -⟩ := hstaged
    exact (answered_congr (run_bind_of_ok (run_mapError_of_ok (Tx.run_commit (hω _) hview)))).mpr (answered_done _)

end Category

/-- **A menu can be listed, filtered or not, and a category copied, exactly when the numbers of the items that
are sorted fit a `bigint`.** -/
theorem menuAlwaysListed_iff (rt : Runtime) (w : World Db Time) :
    (∀ (restaurantID : UUID) (filter : MenuItemFilter) (ω : ListMenuItemsStmt → Outcome), (∀ l, ω l = .ok) →
      ((listMenuItems rt restaurantID filter).Answered ω w ↔
        ∀ m ∈ w.db.listedItems restaurantID filter, NumberFits m.externalID)) ∧
    ∀ (fresh : FreshCategory) (label : String) (actor : UUID) (c : MenuCategoryRow)
      (ω : DuplicateCategoryStmt → Outcome), (∀ l, ω l = .ok) → CategoryCopyable rt w.db fresh label actor c →
      ((duplicateCategory rt fresh c.id label actor).Answered ω w ↔
        ∀ m ∈ w.db.livingItemsOf c.id, NumberFits m.externalID) :=
  ⟨fun restaurantID filter _ hω => listMenuItems_answered_iff hω restaurantID filter,
    fun _ _ _ _ _ hω h => duplicateCategory_answered_iff hω h⟩

/-! ## A long number -/

theorem ascii_lowersAlike : Runtime.ascii.LowersAlike where
  agree := fun s => by
    show s.map Char.toLower = String.ofList (s.toList.map Char.toLower)
    rw [← String.toList_inj, String.toList_map, String.toList_ofList]
  suffix := ascii_keepsSuffix

def noonIDs : FreshCategory :=
  { id := ⟨100⟩, item := fun k => ⟨⟨200 + k⟩, fun j => ⟨200 + ((k + j) * (k + j) + k)⟩⟩ }

/-- Between two squares there is room for all that have one sum. -/
theorem noonIDs_distinct {i j a b : Nat} (h : (i + a) * (i + a) + i = (j + b) * (j + b) + j) : i = j ∧ a = b := by
  have hsum : ∀ {s t m n : Nat}, s < t → m ≤ s → s * s + m = t * t + n → False := by
    intro s t m n hlt hm heq
    have hsquare : (s + 1) * (s + 1) ≤ t * t := Nat.mul_le_mul hlt hlt
    rw [Nat.add_one_mul, Nat.mul_add_one] at hsquare
    omega
  rcases Nat.lt_trichotomy (i + a) (j + b) with hlt | hsame | hlt
  · exact (hsum hlt (Nat.le_add_right i a) h).elim
  · rw [hsame] at h
    omega
  · exact (hsum hlt (Nat.le_add_right j b) h.symm).elim

theorem kebabMenu_copyable : CategoryCopyable .ascii kebabMenu noonIDs "copy" ⟨1⟩
    { id := ⟨12⟩, restaurantID := ⟨2⟩, name := "Kebabs", sortOrder := 1, deletedAt := none } where
  valid := kebabMenu_valid
  menu :=
    { shapes := by decide +kernel
      modificationNames := by decide +kernel
      modificationNameKeys := fun id => (List.pairwise_singleton _ _).filter _
      availabilityKeys := by decide +kernel
      categoryAvailabilityKeys := by decide +kernel }
  unused :=
    { category := by decide +kernel
      items := fun k => by
        refine List.find?_eq_none.mpr fun m hm heq => ?_
        have hid : m.id.n ≤ 13 := (by decide +kernel : ∀ m ∈ kebabMenu.menuItems, m.id.n ≤ 13) m hm
        rw [beq_iff_eq.mp heq] at hid
        have hlarge : 200 + k ≤ 13 := hid
        omega
      modifications := fun p hp k j heq => by
        have hid : p.id.n ≤ 13 := (by decide +kernel : ∀ p ∈ kebabMenu.menuItemModifications, p.id.n ≤ 13) p hp
        rw [heq] at hid
        have hlarge : 200 + ((k + j) * (k + j) + k) ≤ 13 := hid
        omega
      distinctItems := fun i j h => by
        have hn : 200 + i = 200 + j := congrArg UUID.n h
        omega
      distinctModifications := fun i j a b h => by
        have hn : 200 + ((i + a) * (i + a) + i) = 200 + ((j + b) * (j + b) + j) := congrArg UUID.n h
        exact noonIDs_distinct (Nat.add_left_cancel hn) }
  lower := ascii_lowersAlike
  label := by decide
  actor := by decide +kernel
  there := by decide +kernel
  living := rfl
  fewCategories := by decide +kernel
  fewItems := by decide +kernel

theorem menuAlwaysListed_iff_kebab :
    (listMenuItems .ascii ⟨2⟩ .empty).Answered (fun _ => .ok) ⟨kebabMenu, 5000⟩ ∧
      (duplicateCategory .ascii noonIDs ⟨12⟩ "copy" ⟨1⟩).Answered (fun _ => .ok) ⟨kebabMenu, 5000⟩ := by
  obtain ⟨hlisted, hcopied⟩ := menuAlwaysListed_iff .ascii ⟨kebabMenu, 5000⟩
  have hfits : ∀ m ∈ kebabMenu.menuItems, NumberFits m.externalID := by
    intro m hm
    refine menuNumber_isSome_iff.mp ?_
    exact (by decide +kernel : ∀ m ∈ kebabMenu.menuItems, (menuNumber m.externalID).isSome) m hm
  exact ⟨(hlisted ⟨2⟩ .empty (fun _ => .ok) fun _ => rfl).mpr fun m hm => hfits m (List.mem_of_mem_filter hm),
    (hcopied noonIDs "copy" ⟨1⟩ _ (fun _ => .ok) (fun _ => rfl) kebabMenu_copyable).mpr fun m hm =>
      hfits m (List.mem_of_mem_filter hm)⟩

/-- `kebabMenu`, its kebab under the number 2 ^ 63 -/
def longNumberMenu : Db :=
  { kebabMenu with
    menuItems := kebabMenu.menuItems.map fun m =>
      if m.id = ⟨4⟩ then { m with externalID := some "9223372036854775808" } else m }

/-- The schema and the API admit the number, and nothing can be listed or copied. -/
theorem longNumber_notListed : longNumberMenu.Valid ∧
    (∀ m ∈ longNumberMenu.menuItems, m.externalID.all externalIDShape = true) ∧
    ¬ (listMenuItems .ascii ⟨2⟩ .empty).Answered (fun _ => .ok) ⟨longNumberMenu, 5000⟩ ∧
    ¬ (listMenuItems .ascii ⟨2⟩ { MenuItemFilter.empty with available := some true }).Answered (fun _ => .ok)
      ⟨longNumberMenu, 5000⟩ ∧
    ¬ (duplicateCategory .ascii noonIDs ⟨12⟩ "copy" ⟨1⟩).Answered (fun _ => .ok) ⟨longNumberMenu, 5000⟩ := by
  have hnot : ∀ {ℓ α : Type} {p : DbProgram ℓ α} {ω : ℓ → Outcome},
      (p.run ω ⟨longNumberMenu, 5000⟩).1.isOk = false → ¬ p.Answered ω ⟨longNumberMenu, 5000⟩ := by
    intro ℓ α p ω hfails hanswered
    obtain ⟨a, ha⟩ := hanswered
    rw [ha] at hfails
    cases hfails
  refine ⟨⟨?_, ?_, ?_⟩, by decide +kernel, hnot (by decide +kernel), hnot (by decide +kernel), hnot (by decide +kernel)⟩
  · constructor <;> decide +kernel
  · constructor <;> decide +kernel
  · constructor <;> decide +kernel

end Doenerstag
