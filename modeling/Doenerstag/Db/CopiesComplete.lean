import Doenerstag.Db.Duplicates

/-!
# Copies that are made

When the database accepts every statement with which the items of a category are copied.

* `Copyable` — an item of which `copyMenuItem` makes a copy; what the schema and the caller promise of it.
* `copyMenuItem_answered` — the copy is made.
* `copyable_addCopy` — copies of other items do not change that.
* `copyItems_answered` — **all the items of a category are copied**, when none of the ids is in use.
-/

namespace Doenerstag

open ReadCommitted Prog

/-! ## An item that can be copied -/

/-- What `copyMenuItem` needs of the tables -/
structure Copyable (rt : Runtime) (db : Db) (actor categoryID : UUID) (fresh : FreshCopy) (m : MenuItemRow) :
    Prop where
  there : db.menuItem m.id = some m
  price : 0 ≤ m.priceCents
  shape : m.externalID.all externalIDShape = true
  restaurant : ∃ r ∈ db.restaurants, r.id = m.restaurantID
  category : ∃ c ∈ db.menuCategories, c.restaurantID = m.restaurantID ∧ c.id = categoryID
  image : ∀ id ∈ m.imageID, ∃ i ∈ db.images, i.id = id
  actor : (db.userByID actor).isSome
  linkKeys : ∀ t : ItemLinks, (t.targets m.id db).Nodup
  linkTargets : ∀ t : ItemLinks, ∀ id ∈ t.targets m.id db, t.known db id = true
  names : ∀ p ∈ db.livingModifications m.id, 1 ≤ p.name.length ∧ p.name.length ≤ 200
  nameKeys : (db.livingModifications m.id).Pairwise fun p q => rt.lower p.name ≠ rt.lower q.name
  freshItem : db.menuItem fresh.id = none
  freshModifications : ∀ p ∈ db.menuItemModifications, ∀ j, p.id ≠ fresh.modification j
  distinct : Function.Injective fresh.modification

section Links

variable {t t' : ItemLinks} {copyID actor : UUID} {linked : List UUID} {db : Db} {w : World Db Time} {tx : PgTx}

theorem ItemLinks.insertCopies_eq (hnew : ∀ l ∈ t.rows db, l.menuItemID ≠ copyID) (hkeys : linked.Nodup)
    (hthere : (db.menuItem copyID).isSome) (hknown : ∀ id ∈ linked, t.known db id = true)
    (hactor : (db.userByID actor).isSome) :
    t.insertCopies copyID actor linked db = .ok (t.append db (rowsFor copyID linked)) := by
  have hfree : (rowsFor copyID linked).any (t.rows db).contains = false := by
    rw [List.any_eq_false]
    intro l hl hmem
    obtain ⟨id, -, rfl⟩ := List.mem_map.mp hl
    exact hnew _ (List.contains_iff_mem.mp hmem) rfl
  have hnodup : (rowsFor copyID linked).Nodup := by
    refine hkeys.map fun a b hab => ?_
    exact congrArg MenuItemLinkRow.targetID hab
  have hrefers : linked.all (fun id => (db.menuItem copyID).isSome && t.known db id && (db.userByID actor).isSome) =
      true := by
    rw [List.all_eq_true]
    intro id hid
    rw [hthere, hknown id hid, hactor]
    rfl
  unfold insertCopies
  simp [hfree, hnodup, hrefers]

theorem ItemLinks.known_setMenuItems (t : ItemLinks) (db : Db) (rows : List MenuItemRow) (id : UUID) :
    t.known (db.setMenuItems rows) id = t.known db id := by
  match t with
  | classified c => cases c <;> rfl
  | availability => rfl

theorem Db.linkCopy_menuItems (db : Db) (copyID : UUID) (linked : ItemLinks → List UUID) :
    (db.linkCopy copyID linked).menuItems = db.menuItems := by
  cases db
  rfl

theorem Db.linkCopy_appUsers (db : Db) (copyID : UUID) (linked : ItemLinks → List UUID) :
    (db.linkCopy copyID linked).appUsers = db.appUsers := by
  cases db
  rfl

/-- Links are added to nothing else. -/
theorem ItemLinks.append_rest (db : Db) (t' : ItemLinks) (new : List MenuItemLinkRow) :
    (t'.append db new).menuItems = db.menuItems ∧ (t'.append db new).appUsers = db.appUsers ∧
      ∀ (t : ItemLinks) id, t.known (t'.append db new) id = t.known db id := by
  match t' with
  | classified c => cases c <;> exact ⟨rfl, rfl, fun t id => by
      match t with
      | .classified c => cases c <;> rfl
      | .availability => rfl⟩
  | availability => exact ⟨rfl, rfl, fun t id => by
      match t with
      | .classified c => cases c <;> rfl
      | .availability => rfl⟩

/-- **The links of an item are copied.** -/
theorem copyLinks_answered {fresh : FreshCopy} {sourceID : UUID} {ω : CopyItemStmt → Outcome} (hω : ∀ l, ω l = .ok)
    {ts : List ItemLinks} (hts : ts.Nodup) (hview : tx.view w.db = .ok db)
    (hnew : ∀ t ∈ ts, ∀ l ∈ t.rows db, l.menuItemID ≠ fresh.id) (hkeys : ∀ t ∈ ts, (t.targets sourceID db).Nodup)
    (hknown : ∀ t ∈ ts, ∀ id ∈ t.targets sourceID db, t.known db id = true)
    (hthere : (db.menuItem fresh.id).isSome) (hactor : (db.userByID actor).isSome) :
    (copyLinks fresh sourceID actor tx ts).Answered ω w := by
  induction ts generalizing tx db with
  | nil => exact answered_done _
  | cons t rest ih =>
    have haccepted := ItemLinks.insertCopies_eq (hnew t List.mem_cons_self) (hkeys t List.mem_cons_self) hthere
      (hknown t List.mem_cons_self) hactor
    obtain ⟨hrun, hview'⟩ := Tx.run_exec (l := CopyItemStmt.links t) (hω _) hview
      (u := fun view => t.insertCopies fresh.id actor (t.targets sourceID view)) haccepted
    refine (answered_congr (run_bind_of_ok (run_mapError_of_ok hrun))).mpr ?_
    obtain ⟨hnotin, hrest⟩ := List.nodup_cons.mp hts
    obtain ⟨hitems, husers, hsame⟩ := ItemLinks.append_rest db t
      (ItemLinks.rowsFor fresh.id (t.targets sourceID db))
    have hne : ∀ t' ∈ rest, t' ≠ t := fun t' ht' heq => hnotin (heq ▸ ht')
    refine ih hrest hview' (fun t' ht' => ?_) (fun t' ht' => ?_) (fun t' ht' => ?_) ?_ ?_
    · rw [ItemLinks.rows_append (hne t' ht')]
      exact hnew t' (List.mem_cons_of_mem _ ht')
    · rw [ItemLinks.targets_append (hne t' ht')]
      exact hkeys t' (List.mem_cons_of_mem _ ht')
    · intro id hid
      rw [ItemLinks.targets_append (hne t' ht')] at hid
      rw [hsame]
      exact hknown t' (List.mem_cons_of_mem _ ht') id hid
    · rw [Db.menuItem, hitems]
      exact hthere
    · rw [Db.userByID, husers]
      exact hactor

end Links

section Modifications

variable {rt : Runtime} {fresh : FreshCopy} {actor : UUID} {db : Db} {w : World Db Time} {tx : PgTx}

theorem Db.insertModification_eq (row : MenuItemModificationRow) (hlength : 1 ≤ row.name.length ∧ row.name.length ≤ 200)
    (hid : ∀ p ∈ db.menuItemModifications, p.id ≠ row.id)
    (hname : ∀ p ∈ db.everyModificationOf row.menuItemID, rt.lower p.name ≠ rt.lower row.name)
    (hthere : (db.menuItem row.menuItemID).isSome) (hactor : (db.userByID actor).isSome) :
    Db.insertModification rt row actor db =
      .ok (db.setMenuItemModifications (db.menuItemModifications ++ [row])) := by
  have hids : (db.menuItemModifications.any fun p => p.id == row.id) = false := Tables.any_key_eq_false hid
  have hnames : (db.menuItemModifications.any fun p => p.menuItemID == row.menuItemID && p.deletedAt.isNone &&
      rt.lower p.name == rt.lower row.name) = false := by
    rw [List.any_eq_false]
    intro p hp hclash
    simp only [Bool.and_eq_true, beq_iff_eq] at hclash
    exact hname p (List.mem_filter.mpr ⟨hp, beq_iff_eq.mpr hclash.1.1⟩) hclash.2
  have hshort : (decide (row.name.length < 1) || decide (200 < row.name.length)) = false := by
    simp only [Bool.or_eq_false_iff, decide_eq_false_iff_not]
    omega
  unfold Db.insertModification
  rw [hshort, hids, hnames, Option.isNone_eq_false_iff.mpr hthere, Option.isNone_eq_false_iff.mpr hactor]
  rfl

/-- **The modifications of an item are copied.** -/
theorem copyModifications_answered {ω : CopyItemStmt → Outcome} (hω : ∀ l, ω l = .ok) (k : Nat)
    (ms : List MenuItemModificationRow) (hview : tx.view w.db = .ok db)
    (hlengths : ∀ m ∈ ms, 1 ≤ m.name.length ∧ m.name.length ≤ 200)
    (hkeys : ms.Pairwise fun m m' => rt.lower m.name ≠ rt.lower m'.name)
    (hids : ∀ p ∈ db.menuItemModifications, ∀ j, k ≤ j → p.id ≠ fresh.modification j)
    (hdistinct : Function.Injective fresh.modification)
    (hnames : ∀ p ∈ db.everyModificationOf fresh.id, ∀ m ∈ ms, rt.lower p.name ≠ rt.lower m.name)
    (hthere : (db.menuItem fresh.id).isSome) (hactor : (db.userByID actor).isSome) :
    (copyModifications rt fresh actor tx k ms).Answered ω w := by
  induction ms generalizing tx db k with
  | nil => exact answered_done _
  | cons m rest ih =>
    obtain ⟨hfirst, hkeys⟩ := List.pairwise_cons.mp hkeys
    have haccepted := Db.insertModification_eq (m.copy (fresh.modification k) fresh.id)
      (hlengths m List.mem_cons_self) (fun p hp => hids p hp k le_rfl)
      (fun p hp => hnames p hp m List.mem_cons_self) hthere hactor
    obtain ⟨hrun, hview'⟩ := Tx.run_insert (l := CopyItemStmt.modification k) (hω _) hview haccepted
    refine (answered_congr (run_bind_of_ok (run_mapError_of_ok hrun))).mpr ?_
    refine ih (k + 1) hview' (fun p hp => hlengths p (List.mem_cons_of_mem _ hp)) hkeys ?_ ?_ hthere hactor
    · intro p hp j hj
      rcases List.mem_append.mp hp with hp | hp
      · exact hids p hp j (by omega)
      · rw [List.mem_singleton.mp hp]
        intro heq
        have hsame : k = j := hdistinct heq
        omega
    · intro p hp m' hm'
      obtain ⟨hmem, hown⟩ := List.mem_filter.mp hp
      rcases List.mem_append.mp hmem with hold | hnew
      · exact hnames p (List.mem_filter.mpr ⟨hold, hown⟩) m' (List.mem_cons_of_mem _ hm')
      · rw [List.mem_singleton.mp hnew]
        exact hfirst m' hm'

end Modifications

/-! ## One item -/

section Item

variable {rt : Runtime} {fresh : FreshCopy} {actor categoryID : UUID} {m : MenuItemRow} {name : String}
  {db : Db} {w : World Db Time} {tx : PgTx}

theorem Db.insertMenuItem_eq (row : MenuItemRow) (hlength : 1 ≤ row.name.length ∧ row.name.length ≤ 200)
    (hprice : 0 ≤ row.priceCents) (hshape : row.externalID.all externalIDShape = true)
    (hfresh : db.menuItem row.id = none)
    (hfree : ∀ p ∈ db.menuItems, p.deletedAt = none → p.restaurantID = row.restaurantID →
      rt.lower p.name ≠ rt.lower row.name) (hknown : db.knowsMenuItemReferences row = true) :
    Db.insertMenuItem rt row db = .ok (db.setMenuItems (db.menuItems ++ [row]), some row.scan) := by
  have htaken : db.menuItemNameTaken rt row = false := by
    unfold Db.menuItemNameTaken
    rw [List.any_eq_false]
    intro p hp hclash
    simp only [Bool.and_eq_true, beq_iff_eq, Option.isNone_iff_eq_none] at hclash
    exact hfree p hp hclash.1.2 hclash.1.1.2 hclash.2
  have hcheck : row.Check := ⟨hlength, hprice⟩
  unfold Db.insertMenuItem Db.checkMenuItem
  simp [hfresh, hcheck, hshape, htaken, hknown, Except.map]

/-- The copy refers to what its item refers to, and to the new category. -/
theorem Copyable.known (h : Copyable rt db actor categoryID fresh m) (now : Time) :
    db.knowsMenuItemReferences (m.copy fresh.id (some categoryID) name actor now) = true := by
  obtain ⟨c, hc, hcr, hcid⟩ := h.category
  have himage : m.imageID.all (fun id => db.images.any fun i => i.id == id) = true := by
    rw [Option.all_eq_true]
    exact fun id hid => Tables.any_key (h.image id hid)
  have hrestaurant : (db.restaurants.any fun r => r.id == m.restaurantID) = true := Tables.any_key h.restaurant
  have hcategory : (db.menuCategories.any fun c => c.restaurantID == m.restaurantID && c.id == categoryID) = true :=
    List.any_eq_true.mpr ⟨c, hc, by rw [hcr, hcid, beq_self_eq_true, beq_self_eq_true]; rfl⟩
  show ((db.restaurants.any fun r => r.id == m.restaurantID) &&
    (db.menuCategories.any fun c => c.restaurantID == m.restaurantID && c.id == categoryID) &&
    m.imageID.all (fun id => db.images.any fun i => i.id == id) && (db.userByID actor).isSome) = true
  rw [hrestaurant, hcategory, himage, h.actor]
  rfl

/-- **An item is copied**, under a name that is free and not too long. -/
theorem copyMenuItem_answered {ω : CopyItemStmt → Outcome} (hω : ∀ l, ω l = .ok)
    (h : Copyable rt db actor categoryID fresh m) (hloose : db.NothingLoose) (hview : tx.view w.db = .ok db)
    (hlength : 1 ≤ name.length ∧ name.length ≤ 200)
    (hfree : ∀ p ∈ db.menuItems, p.deletedAt = none → p.restaurantID = m.restaurantID →
      rt.lower p.name ≠ rt.lower name) :
    (copyMenuItem rt fresh tx m.id (some categoryID) name actor).Answered ω w := by
  obtain ⟨hnone, hbare⟩ := hloose fresh.id h.freshItem
  have haccepted : Db.insertItemCopy rt fresh.id m.id (some categoryID) name actor tx.began db db =
      .ok (db.setMenuItems (db.menuItems ++ [m.copy fresh.id (some categoryID) name actor tx.began])) := by
    rw [Db.insertItemCopy, h.there]
    exact congrArg (Except.map Prod.fst) (Db.insertMenuItem_eq (m.copy fresh.id (some categoryID) name actor tx.began)
      hlength h.price h.shape h.freshItem hfree (h.known tx.began))
  obtain ⟨hrun, hview₁⟩ := Tx.run_exec (l := CopyItemStmt.item) (hω _) hview haccepted
  refine (answered_congr (run_bind_of_ok (run_mapError_of_ok hrun))).mpr ?_
  -- the copy is there, and nothing hangs off it yet
  have hthere : ((db.setMenuItems (db.menuItems ++ [m.copy fresh.id (some categoryID) name actor tx.began])).menuItem
      fresh.id).isSome := by
    rw [Db.menuItem, Db.setMenuItems_menuItems, List.find?_isSome]
    exact ⟨_, List.mem_append_right _ List.mem_cons_self, beq_self_eq_true _⟩
  have hlinked : ∀ t ∈ ItemLinks.all, t.targets m.id (db.setMenuItems (db.menuItems ++
      [m.copy fresh.id (some categoryID) name actor tx.began])) = t.targets m.id db := by
    intro t _
    rw [ItemLinks.targets, ItemLinks.rows_setMenuItems, ItemLinks.targets]
  refine answered_bind_found hω (copyLinks_reads actor _ fresh m.id ItemLinks.all).readOnly
    (copyLinks_answered hω (by decide) hview₁ (fun t _ => ?_) (fun t ht => ?_) (fun t ht => ?_) hthere h.actor)
    (copyLinks_found (by decide) _ hlinked hview₁) fun tx₂ hview₂ => ?_
  · rw [ItemLinks.rows_setMenuItems]
    intro l hl heq
    have hmem : l.targetID ∈ t.targets fresh.id db :=
      List.mem_map_of_mem (List.mem_filter.mpr ⟨hl, beq_iff_eq.mpr heq⟩)
    rw [hnone t] at hmem
    cases hmem
  · rw [hlinked t ht]
    exact h.linkKeys t
  · rw [hlinked t ht]
    intro id hid
    rw [ItemLinks.known_setMenuItems]
    exact h.linkTargets t id hid
  · have hlinks : tx₂.view w.db = .ok ((db.setMenuItems (db.menuItems ++ [m.copy fresh.id (some categoryID) name
        actor tx.began])).linkCopy fresh.id fun t => t.targets m.id db) := hview₂
    refine (answered_congr (run_bind_of_ok (run_mapError_of_ok (Tx.run_query (hω _) hlinks)))).mpr ?_
    have hperm := sliceStable_perm (fun a b => a.sortOrder < b.sortOrder ||
      (a.sortOrder == b.sortOrder && rt.sortsBefore (rt.lower a.name) (rt.lower b.name))) (db.livingModifications m.id)
    rw [Db.listModifications_congr (Db.linkCopy_menuItemModifications _ _ _)]
    refine copyModifications_answered hω 0 _ hlinks (fun p hp => ?_) ?_ (fun p hp j _ => ?_) h.distinct
      (fun p hp => ?_) ?_ ?_
    · exact h.names p (hperm.mem_iff.mp hp)
    · exact (hperm.pairwise_iff fun hne heq => hne heq.symm).mpr h.nameKeys
    · rw [Db.linkCopy_menuItemModifications] at hp
      exact h.freshModifications p hp j
    · rw [Db.everyModificationOf, Db.linkCopy_menuItemModifications] at hp
      have hmem : p ∈ db.everyModificationOf fresh.id := hp
      rw [hbare] at hmem
      cases hmem
    · rw [Db.menuItem, Db.linkCopy_menuItems]
      exact hthere
    · rw [Db.userByID, Db.linkCopy_appUsers]
      exact h.actor

/-- **The copy of another item does not change what an item can be copied to.** -/
theorem copyable_addCopy (h : Copyable rt db actor categoryID fresh m) {c : ItemCopy}
    (hkept : MenuKept db (db.addCopy c)) (hid : c.row.id ≠ fresh.id)
    (hmodifications : ∀ p ∈ c.modifications, ∀ j, p.id ≠ fresh.modification j) :
    Copyable rt (db.addCopy c) actor categoryID fresh m := by
  have hthere : (db.menuItem m.id).isSome := by
    rw [h.there]
    rfl
  obtain ⟨hlinks, hevery⟩ := hkept.hanging m.id hthere
  have hliving : (db.addCopy c).livingModifications m.id = db.livingModifications m.id := by
    rw [Db.livingModifications_eq, Db.livingModifications_eq, hevery]
  have hknown : ∀ (t : ItemLinks) id, t.known (db.addCopy c) id = t.known db id := by
    intro t id
    match t with
    | .classified c => cases c <;> rfl
    | .availability => rfl
  constructor
  case there => exact hkept.menuItem h.there
  case price => exact h.price
  case shape => exact h.shape
  case restaurant => exact h.restaurant
  case category => exact h.category
  case image => exact h.image
  case actor => exact h.actor
  case linkKeys =>
    intro t
    rw [hlinks t]
    exact h.linkKeys t
  case linkTargets =>
    intro t id hid
    rw [hlinks t] at hid
    rw [hknown]
    exact h.linkTargets t id hid
  case names =>
    rw [hliving]
    exact h.names
  case nameKeys =>
    rw [hliving]
    exact h.nameKeys
  case freshItem =>
    show (db.menuItems ++ [c.row]).find? _ = none
    have hfind : db.menuItems.find? (fun m => m.id == fresh.id) = none := h.freshItem
    rw [List.find?_append, hfind]
    simp [hid]
  case freshModifications =>
    intro p hp j
    rcases List.mem_append.mp hp with hp | hp
    · exact h.freshModifications p hp j
    · exact hmodifications p hp j
  case distinct => exact h.distinct

theorem modificationCopies_id {k : Nat} {ms : List MenuItemModificationRow} {p : MenuItemModificationRow}
    (h : p ∈ modificationCopies fresh k ms) : ∃ j, p.id = fresh.modification j := by
  induction ms generalizing k with
  | nil => cases h
  | cons m rest ih =>
    rcases List.mem_cons.mp h with rfl | h
    · exact ⟨k, rfl⟩
    · exact ih h

end Item

/-! ## The items of a category -/

/-- Lower-casing is the same in the database and in Go, and leaves the suffix of a copy as it is. -/
structure Runtime.LowersAlike (rt : Runtime) : Prop where
  agree : ∀ s, rt.lower s = rt.toLower s
  suffix : rt.KeepsSuffix

/-- Ids that nothing has, and no two of which are the same -/
structure FreshCategory.Unused (fresh : FreshCategory) (db : Db) : Prop where
  category : ∀ p ∈ db.menuCategories, p.id ≠ fresh.id
  items : ∀ k, db.menuItem (fresh.item k).id = none
  modifications : ∀ p ∈ db.menuItemModifications, ∀ k j, p.id ≠ (fresh.item k).modification j
  distinctItems : ∀ i j, (fresh.item i).id = (fresh.item j).id → i = j
  distinctModifications : ∀ i j a b, (fresh.item i).modification a = (fresh.item j).modification b → i = j ∧ a = b

section Items

variable {rt : Runtime} {fresh : FreshCategory} {actor restaurantID : UUID} {label : String} {view : Db}
  {w : World Db Time} {tx : PgTx}

/-- A round of `CopyName` that goes well -/
theorem nameCopy_eq {ℓ : Type} (hlower : rt.LowersAlike) (hlabel : label.length ≤ 32) (base : String)
    {taken : Finset String} (htaken : taken.card < 2 ^ 31) :
    ∃ name, (1 ≤ name.length ∧ name.length ≤ 200) ∧ rt.lower name ∉ taken ∧
      (nameCopy rt base label taken : DbProgram ℓ _) = pure (name, insert (rt.lower name) taken) := by
  obtain ⟨name, n, -, hname, hlength, hfree, hrounds⟩ :=
    copyName_round rt hlower.suffix base label taken hlabel htaken
  obtain ⟨front, hname⟩ := copyCandidate_suffix hname
  refine ⟨name, ⟨?_, hlength⟩, ?_, ?_⟩
  · have hsuffix : 0 < (copySuffix label n).length := by
      rw [← String.length_toList, toList_copySuffix]
      exact Nat.succ_pos _
    rw [hname, String.length_append]
    omega
  · rw [hlower.agree]
    exact hfree
  · unfold nameCopy
    rw [hrounds _ (Nat.lt_succ_self _), hlower.agree]

/-- **The loop goes well**: what it has copied takes names, and nothing else from what is to come. -/
theorem copyItems_answered {ω : DuplicateCategoryStmt → Outcome} (hω : ∀ l, ω l = .ok) (hlower : rt.LowersAlike)
    (hlabel : label.length ≤ 32) {db : Db} (hunused : fresh.Unused db) (k : Nat) (items : List MenuItemRow)
    (hview : tx.view w.db = .ok view) (hloose : view.NothingLoose)
    (hitems : ∀ m ∈ items, m.restaurantID = restaurantID)
    (hcopyable : ∀ m ∈ items, ∀ j, k ≤ j → Copyable rt view actor fresh.id (fresh.item j) m) {taken : Finset String}
    (htaken : ∀ p ∈ view.menuItems, p.deletedAt = none → p.restaurantID = restaurantID → rt.lower p.name ∈ taken)
    (hcard : taken.card + items.length < 2 ^ 31) :
    (copyItems rt fresh label actor tx taken k items).Answered ω w := by
  induction items generalizing tx view taken k with
  | nil => exact answered_done _
  | cons m rest ih =>
    rw [List.length_cons] at hcard
    have htakenFew : taken.card < 2 ^ 31 := by omega
    obtain ⟨name, hlength, hfree, hname⟩ := nameCopy_eq (ℓ := DuplicateCategoryStmt) hlower hlabel m.name htakenFew
    have hm := hcopyable m List.mem_cons_self k le_rfl
    have hown : m.restaurantID = restaurantID := hitems m List.mem_cons_self
    have hnew : ∀ p ∈ view.menuItems, p.deletedAt = none → p.restaurantID = m.restaurantID →
        rt.lower p.name ≠ rt.lower name := by
      intro p hp hliving hsame heq
      have hmem := htaken p hp hliving (hsame.trans hown)
      rw [heq] at hmem
      exact hfree hmem
    have hreads : ((copyMenuItem rt (fresh.item k) tx m.id (some fresh.id) name actor).within
        (DuplicateCategoryStmt.copy k)).Reads fun _ => True :=
      Reads.within (copyMenuItem_reads rt actor tx (fresh.item k) m.id (some fresh.id) name)
    rw [copyItems, hname, pure_bind]
    refine answered_bind_found hω hreads.readOnly (answered_within.mpr (copyMenuItem_answered (fun _ => hω _) hm hloose
      hview hlength hnew)) ((copyMenuItem_found hview hm.there).under_within _) fun tx' hcopied => ?_
    obtain ⟨c, hrow, hmodifications, hcopy, hview'⟩ := hcopied
    have hrest : ∀ p ∈ rest, ∀ j, k + 1 ≤ j → Copyable rt (view.addCopy c) actor fresh.id (fresh.item j) p := by
      intro p hp j hj
      refine copyable_addCopy (hcopyable p (List.mem_cons_of_mem _ hp) j (by omega)) hcopy.kept ?_ ?_
      · rw [hrow]
        intro heq
        have hsame := hunused.distinctItems k j heq
        omega
      · intro q hq a heq
        rw [hmodifications] at hq
        obtain ⟨b, hb⟩ := modificationCopies_id hq
        have hsame := (hunused.distinctModifications k j b a (hb.symm.trans heq)).1
        omega
    refine ih (k + 1) hview' (hcopy.nothingLoose hloose) (fun p hp => hitems p (List.mem_cons_of_mem _ hp)) hrest ?_ ?_
    · intro p hp hliving hsame
      rcases List.mem_append.mp hp with hp | hp
      · exact Finset.mem_insert_of_mem (htaken p hp hliving hsame)
      · rw [List.mem_singleton.mp hp, hrow]
        exact Finset.mem_insert_self _ _
    · have hle := Finset.card_insert_le (rt.lower name) taken
      show (insert (rt.lower name) taken).card + rest.length < 2 ^ 31
      omega

end Items

end Doenerstag
