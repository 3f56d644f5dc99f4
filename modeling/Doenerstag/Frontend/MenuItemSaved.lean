import Doenerstag.Api.ItemPatches
import Doenerstag.Frontend.MenuItemDialog

/-!
# Saving a dish that nobody touched

What the requests of the menu item dialog make of a dish when it is saved as it was opened.

* `patchDish_run`, `attachDish_run` — the first request, and the second one.
* `saveMenuItem_run` — both: nothing has changed, or each part of the dish is kept if the dialog keeps it.
* `saveModification_run` — a modification has the price of its text, or 0.
* `saveMenuItem_keeps_iff` — **saving the dialog as it was opened keeps the dish if and only if the dialog keeps it;
  and a modification is saved with the price of its text if and only if that can be read.**
* `saveMenuItem_keeps_not` — a tag that the page does not know is lost, and `abc` is saved as 0.
-/

namespace Doenerstag

open ReadCommitted Prog

/-! ## The first request -/

section Saved

variable {h : MenuHandlers} {e : DishEdit} {row : MenuItemRow} {payload : MenuItemPayload} {w w' : World Db Time}

theorem DishRead.ne_empty {rt : Runtime} {change : MenuItemUpdate} (hchange : DishRead rt payload change) :
    change ≠ .empty := by
  rintro rfl
  cases hchange.name

/-- What is accepted of the request -/
structure DishAccepted (rt : Runtime) (e : DishEdit) (payload : MenuItemPayload) (row : MenuItemRow)
    (accepted : UUID × UUID × MenuItemUpdate × MenuHandlers.PatchMenuItemRequest) : Prop where
  actor : ∃ p, e.principal = some p ∧ accepted.1 = p.userID
  item : accepted.2.1 = row.id
  change : DishRead rt payload accepted.2.2.1
  ids : accepted.2.2.2.ids = fun c => some (payload.ids c)

theorem acceptDish_returns (hid : h.rt.parseUUID e.item.id = some row.id) :
    (h.acceptItemPatch (e.request payload)).Returns (· = w) (DishAccepted h.rt e payload row) := by
  have hchange : (h.acceptItemPatch (e.request payload)).Returns (· = w) fun accepted =>
      DishRead h.rt payload accepted.2.2.1 := by
    refine .bind (.trivially _) fun _ _ => .bind (.trivially _) fun _ _ => .bind (.trivially _) fun _ _ => ?_
    refine .bind (.ofExcept fun body hbody => hbody) fun body hbody => ?_
    exact .bind (validateItemPatch_returns _ hbody) fun change hread => returns_done.mpr hread
  refine ((acceptItemPatch_returns _).and hchange).mono fun accepted ⟨⟨hactor, hbody, hitem, _⟩, hread⟩ => ?_
  obtain ⟨cents, -, hdecoded⟩ := exceptMap_eq_ok hbody
  exact ⟨hactor, Option.some.inj (hitem.symm.trans hid), hread, by rw [hdecoded]⟩

/-- What the first request makes of the dish -/
structure DishPatched (e : DishEdit) (row : MenuItemRow) (db db' : Db) : Prop where
  columns : (∃ actor, db'.menuItem row.id = some { row with updatedBy := actor }) ↔ KeepsRow e row
  stored : db'.menuItem row.id = some row ↔ KeepsRow e row ∧ SavedAgain e row
  marks : ∀ c, KeepsMarks e db row c → SameMarks row db db' c
  filters : SameFilters row db db'

theorem patchDish_run (hliving : w.db.livingMenuItem row.id = some row) (hshown : DishShown w.db row e.item)
    (hread : ReadsDish h.rt w.db row) (hsubmit : (openMenuItemEditor e).submit e.money = some payload)
    {ω : MenuStmt → Outcome} {res : Except ApiError MenuResponse}
    (hrun : ((h.patchItem (e.request payload)).under Outcome.found).run ω w = (res, w')) :
    (w' = w ∧ ∃ x, res = .error x) ∨ (DishPatched e row w.db w'.db ∧
      ∀ a, res = .ok a → ∀ c, SameMarks row w.db w'.db c → KeepsMarks e w.db row c) := by
  choose linked htexts hlinked using fun c => exists_ticked (e.reference c) (hshown.marks c) (hread.marks c)
  have hsent : ∀ c, payload.ids c = (linked c).map UUID.string := by
    obtain ⟨cents, -, rfl⟩ := Option.map_eq_some_iff.mp hsubmit
    exact htexts
  have hparse : ∀ c, parseIDList h.rt (payload.ids c) c.field = .ok (linked c) := by
    intro c
    rw [hsent]
    exact parseIDList_string fun id hid => hread.marks c id ((hlinked c id).mp hid).1
  have hnames : NamesLinks row.id linked w.db := fun c id hid => Classification.mem_of.mp ((hlinked c id).mp hid).1
  have hid : h.rt.parseUUID e.item.id = some row.id := hshown.id ▸ hread.item
  obtain hquiet | ⟨accepted, m, items, hA, hm, hrow, hnarrowed, honly⟩ := patchItem_narrows (acceptDish_returns hid)
    (fun accepted hA => ⟨hA.item, hA.change.ne_empty, hA.ids⟩) hnames hparse hrun
  · exact .inl hquiet
  obtain rfl : row = m := Option.some.inj (hliving.symm.trans hm)
  have hstored : w'.db.menuItem row.id = some (row.update accepted.1 w.now accepted.2.2.1.apply) := by
    rw [Db.menuItem, hnarrowed.items, ← Db.menuItem, hrow]
  have hkeeps := hA.change.apply_eq_self_iff hshown hread hsubmit
  have hof : ∀ (c : Classification) id, id ∈ c.of row.id (w.db.setMenuItems items) ↔ id ∈ c.of row.id w.db := by
    intro c id
    cases c <;> exact Iff.rfl
  obtain ⟨p, hp, hactor⟩ := hA.actor
  refine .inr ⟨⟨?_, ?_, fun c hknown id => ?_, fun id => ?_⟩, fun a ha c hsame id hid => ?_⟩
  · simp only [hstored, Option.some.injEq]
    exact (MenuItemRow.update_keeps_iff rfl rfl).trans hkeeps
  · rw [hstored, Option.some.injEq, MenuItemRow.update_eq_self_iff rfl rfl, hkeeps, SavedAgain, hactor]
    simp [hp]
  · rw [← hof]
    constructor
    · intro hid
      exact Classification.mem_of.mpr (hnarrowed.fewer c _ (Classification.mem_of.mp hid))
    · intro hid
      refine Classification.mem_of.mpr (hnarrowed.kept c _ (Classification.mem_of.mp hid) fun _ => ?_)
      have hold := (hof c id).mp hid
      exact (hlinked c id).mpr ⟨hold, hknown id hold⟩
  · rw [Db.attachedTo, hnarrowed.availability]
    exact Iff.rfl
  · have hleft := Classification.mem_of.mp ((hsame id).mpr hid)
    exact ((hlinked c id).mp (honly a ha c _ hleft rfl)).2

/-! ## The second request -/

theorem requiredUUID_string {rt : Runtime} {id : UUID} {field : String} (hread : rt.parseUUID id.string = some id) :
    requiredUUID rt id.string field = .ok id := by
  simp only [requiredUUID, id.trimSpace_string, if_neg id.string_ne_empty, hread]

theorem attachDish_run {ids : List UUID} (hid : h.rt.parseUUID e.item.id = some row.id)
    (hread : ∀ id ∈ ids, h.rt.parseUUID id.string = some id) {ω : SetAvailabilityStmt → Outcome}
    {res : Except ApiError (List AvailabilityBody)}
    (hrun : ((h.setItemAvailability (e.attachments (ids.map UUID.string))).under Outcome.found).run ω w = (res, w')) :
    (w' = w ∧ ∃ x, res = .error x) ∨ ((∃ rows, w'.db = w.db.setMenuItemAvailability rows) ∧
      ∀ id, id ∈ w'.db.attachedTo row.id ↔ id ∈ ids) := by
  obtain hquiet | ⟨values, found, hvalues, hfound, hset⟩ := setItemAvailability_attaches hid hrun
  · exact .inl hquiet
  obtain rfl : ids.map UUID.string = values := Except.ok.inj hvalues
  refine .inr ⟨hset.others, fun id => hset.mem_attachedTo.trans ((hfound id).trans ⟨?_, fun hmem => ?_⟩)⟩
  · rintro ⟨raw, hraw, hparsed⟩
    obtain ⟨id', hid', rfl⟩ := List.mem_map.mp hraw
    rw [requiredUUID_string (hread id' hid')] at hparsed
    rwa [← Except.ok.inj hparsed]
  · exact ⟨id.string, List.mem_map_of_mem hmem, requiredUUID_string (hread id hmem)⟩

/-- What is picked, if a picker is there -/
theorem picked_eq_some {filterIDs : List String} (hpicked : e.picked = some filterIDs) :
    ∃ filters, e.filters = some (some filters) ∧ filters ≠ [] ∧
      filterIDs = checkboxGroup filters fun id => e.item.availability.contains id := by
  obtain ⟨answer, hanswer, hboxes⟩ := Option.bind_eq_some_iff.mp hpicked
  dsimp only at hboxes
  split_ifs at hboxes with hempty
  cases answer with
  | none => exact absurd rfl hempty
  | some filters => exact ⟨filters, hanswer, hempty, (Option.some.inj hboxes).symm⟩

theorem keepsFilters_of_picked_none {db : Db} (hpicked : e.picked = none) : KeepsFilters e db row := by
  intro filters hfilters hsome
  rw [DishEdit.picked, hfilters, Option.bind_some] at hpicked
  cases (if_neg hsome).symm.trans hpicked

/-! ## Both -/

/-- What a run makes of the dish if it has changed something -/
structure DishSaved (e : DishEdit) (row : MenuItemRow) (db db' : Db) : Prop where
  columns : (∃ actor, db'.menuItem row.id = some { row with updatedBy := actor }) ↔ KeepsRow e row
  stored : db'.menuItem row.id = some row ↔ KeepsRow e row ∧ SavedAgain e row
  marks : ∀ c, KeepsMarks e db row c → SameMarks row db db' c
  filters : KeepsFilters e db row → SameFilters row db db'

/-- What is left when both requests are answered -/
structure DishAnswered (e : DishEdit) (row : MenuItemRow) (db db' : Db) : Prop where
  marks : ∀ c, SameMarks row db db' c → KeepsMarks e db row c
  filters : SameFilters row db db' → KeepsFilters e db row

/-- The second request changes the filters only. -/
theorem DishPatched.attached {db db₁ db₂ : Db} (hpatched : DishPatched e row db db₁)
    (hothers : ∃ rows, db₂ = db₁.setMenuItemAvailability rows)
    (hfilters : KeepsFilters e db row → SameFilters row db db₂) :
    DishSaved e row db db₂ ∧ ∀ c, SameMarks row db db₂ c ↔ SameMarks row db db₁ c := by
  obtain ⟨rows, rfl⟩ := hothers
  have hmarks : ∀ c, SameMarks row db (db₁.setMenuItemAvailability rows) c ↔ SameMarks row db db₁ c := by
    intro c
    cases c <;> exact Iff.rfl
  refine ⟨⟨hpatched.columns, hpatched.stored, fun c hknown => ?_, hfilters⟩, hmarks⟩
  exact (hmarks c).mpr (hpatched.marks c hknown)

/-- **A run has changed nothing, or each part of the dish is kept if the dialog keeps it, and only then if the requests
are answered.** -/
theorem saveMenuItem_run (hliving : w.db.livingMenuItem row.id = some row) (hshown : DishShown w.db row e.item)
    (hread : ReadsDish h.rt w.db row) {ω : DishStmt → Outcome} {res : Except ApiError (Option MenuResponse)}
    (hrun : ((h.saveMenuItem e).under Outcome.found).run ω w = (res, w')) :
    (w' = w ∧ ∀ a, res ≠ .ok (some a)) ∨
      (DishSaved e row w.db w'.db ∧ ∀ a, res = .ok (some a) → DishAnswered e row w.db w'.db) := by
  unfold MenuHandlers.saveMenuItem at hrun
  cases hsent : e.sent with
  | none =>
    rw [hsent] at hrun
    cases hrun
    exact .inl ⟨rfl, fun a ha => by cases ha⟩
  | some r =>
    obtain ⟨payload, hsubmit, rfl⟩ := Option.map_eq_some_iff.mp hsent
    rw [hsent] at hrun
    dsimp only at hrun
    rw [under_bind, under_within] at hrun
    obtain ⟨x, hfailed, rfl⟩ | ⟨answer, w₁, hanswered, hrest⟩ := run_bind_cases hrun
    · rw [run_within] at hfailed
      obtain ⟨rfl, -⟩ | ⟨hpatched, -⟩ := patchDish_run hliving hshown hread hsubmit hfailed
      · exact .inl ⟨rfl, by simp⟩
      · obtain ⟨hsaved, -⟩ := hpatched.attached ⟨_, rfl⟩ fun _ => hpatched.filters
        exact .inr ⟨hsaved, by simp⟩
    rw [run_within] at hanswered
    obtain ⟨-, x, hx⟩ | ⟨hpatched, hmarks⟩ := patchDish_run hliving hshown hread hsubmit hanswered
    · cases hx
    have hmarks := hmarks answer rfl
    cases hpicked : e.picked with
    | none =>
      rw [hpicked] at hrest
      cases hrest
      obtain ⟨hsaved, -⟩ := hpatched.attached ⟨_, rfl⟩ fun _ => hpatched.filters
      exact .inr ⟨hsaved, fun _ _ => ⟨hmarks, fun _ => keepsFilters_of_picked_none hpicked⟩⟩
    | some filterIDs =>
      obtain ⟨filters, hfilters, hsome, rfl⟩ := picked_eq_some hpicked
      obtain ⟨ids, htexts, hids⟩ := exists_ticked filters hshown.availability hread.filters
      have hkeeps : KeepsFilters e w.db row ↔ ∀ id ∈ w.db.attachedTo row.id, id.string ∈ filters := by
        rw [KeepsFilters, hfilters]
        exact ⟨fun hall => hall filters rfl hsome, fun hall _ hsame _ => Option.some.inj (Option.some.inj hsame) ▸ hall⟩
      rw [hpicked] at hrest
      dsimp only at hrest
      rw [htexts, under_bind, under_within] at hrest
      have hkept : ∀ db : Db, (∀ id, id ∈ db.attachedTo row.id ↔ id ∈ ids) →
          (SameFilters row w.db db ↔ KeepsFilters e w.db row) := by
        intro db hset
        rw [hkeeps]
        constructor
        · intro hsame id hid
          exact ((hids id).mp ((hset id).mp ((hsame id).mpr hid))).2
        · intro hall id
          rw [hset, hids]
          exact and_iff_left_of_imp (hall id)
      have hitem : h.rt.parseUUID e.item.id = some row.id := hshown.id ▸ hread.item
      have hids' : ∀ id ∈ ids, h.rt.parseUUID id.string = some id := fun id hid => hread.filters id ((hids id).mp hid).1
      obtain ⟨x, hfailed, rfl⟩ | ⟨bodies, w₂, hattached, hdone⟩ := run_bind_cases hrest
      · rw [run_within] at hfailed
        obtain ⟨rfl, -⟩ | ⟨hothers, hset⟩ := attachDish_run hitem hids' hfailed
        · obtain ⟨hsaved, -⟩ := hpatched.attached ⟨_, rfl⟩ fun _ => hpatched.filters
          exact .inr ⟨hsaved, by simp⟩
        · obtain ⟨hsaved, -⟩ := hpatched.attached hothers (hkept _ hset).mpr
          exact .inr ⟨hsaved, by simp⟩
      · rw [run_within] at hattached
        cases hdone
        obtain ⟨-, x, hx⟩ | ⟨hothers, hset⟩ := attachDish_run hitem hids' hattached
        · cases hx
        · obtain ⟨hsaved, hsame⟩ := hpatched.attached hothers (hkept _ hset).mpr
          exact .inr ⟨hsaved, fun _ _ => ⟨fun c hc => hmarks c ((hsame c).mp hc), (hkept _ hset).mp⟩⟩

/-! ## A modification -/

/-- What is known of the one request is known of its answer. -/
theorem run_saved {p : Handler ModificationStmt MenuItemModificationRow} {ω : ModificationStmt → Outcome}
    {P : MenuItemModificationRow → World Db Time → Prop} {res : Except ApiError (Option MenuItemModificationRow)}
    (hsaves : ∀ r w', p.run ω w = (r, w') → (∀ m, r = .ok m → P m w') ∧ ((¬ ∃ m, r = .ok m) → w' = w))
    (hrun : (p >>= fun m => pure (some m)).run ω w = (res, w')) :
    (∀ m, res = .ok (some m) → P m w') ∧ ((¬ ∃ m, res = .ok (some m)) → w' = w) := by
  obtain ⟨x, hfailed, rfl⟩ | ⟨m, w₁, hsaved, hdone⟩ := run_bind_cases hrun
  · exact ⟨by simp, fun _ => (hsaves _ _ hfailed).2 (by simp)⟩
  · cases hdone
    refine ⟨fun m' hm' => ?_, fun hnone => absurd ⟨m, rfl⟩ hnone⟩
    obtain rfl : m = m' := Option.some.inj (Except.ok.inj hm')
    exact (hsaves _ _ hsaved).1 m rfl

/-- One that is saved has the price that was read of its text, or 0; otherwise nothing has changed. -/
theorem saveModification_run {fresh : UUID} {m : ModificationEdit} {ω : ModificationStmt → Outcome}
    {res : Except ApiError (Option MenuItemModificationRow)}
    (hrun : (h.saveModification fresh m).run ω w = (res, w')) :
    (∀ saved, res = .ok (some saved) → saved.priceDeltaCents.toInt = m.cents ∧ saved ∈ w'.db.menuItemModifications) ∧
      ((¬ ∃ saved, res = .ok (some saved)) → w' = w) := by
  unfold MenuHandlers.saveModification at hrun
  let P (saved : MenuItemModificationRow) (w' : World Db Time) : Prop :=
    saved.priceDeltaCents.toInt = m.cents ∧ saved ∈ w'.db.menuItemModifications
  cases hexisting : m.existing with
  | some k =>
    rw [hexisting] at hrun
    refine run_saved (P := P) (fun r w' hpatch => ?_) hrun
    obtain ⟨hsaved, hnone⟩ := patchModification_saves hpatch
    refine ⟨fun saved hr => ?_, hnone⟩
    obtain ⟨⟨body, hbody, hprice⟩, hmem⟩ := hsaved saved hr
    obtain ⟨cents, hcents, rfl⟩ := exceptMap_eq_ok hbody
    exact ⟨by rw [hprice cents rfl, decodeCents_toInt hcents], hmem⟩
  | none =>
    rw [hexisting] at hrun
    dsimp only at hrun
    split_ifs at hrun with hname
    · cases hrun
      exact ⟨by simp, fun _ => rfl⟩
    refine run_saved (P := P) (fun r w' hcreate => ?_) hrun
    obtain ⟨hsaved, hnone⟩ := createModification_saves hcreate
    refine ⟨fun saved hr => ?_, hnone⟩
    obtain ⟨⟨body, hbody, hprice⟩, hmem⟩ := hsaved saved hr
    obtain ⟨cents, hcents, rfl⟩ := exceptMap_eq_ok hbody
    exact ⟨by rw [hprice, decodeCents_toInt hcents], hmem⟩

/-! ## What is kept -/

/-- **Saving the dialog as it was opened keeps the dish if the dialog keeps it, however the requests end, and if they
are answered each part of it only then. A modification is saved with the price of its text if and only if the text can
be read; if nothing is saved, nothing has changed.** -/
theorem saveMenuItem_keeps_iff (hliving : w.db.livingMenuItem row.id = some row) (hshown : DishShown w.db row e.item)
    (hread : ReadsDish h.rt w.db row) :
    (∀ (ω : DishStmt → Outcome) res w', ((h.saveMenuItem e).under Outcome.found).run ω w = (res, w') →
      (DialogKeeps e w.db row → DishKept row w.db w'.db) ∧
      ∀ a, res = .ok (some a) → (DishKept row w.db w'.db ↔ DialogKeeps e w.db row) ∧
        ((∃ actor, w'.db.menuItem row.id = some { row with updatedBy := actor }) ↔ KeepsRow e row) ∧
        (∀ c, SameMarks row w.db w'.db c ↔ KeepsMarks e w.db row c) ∧
        (SameFilters row w.db w'.db ↔ KeepsFilters e w.db row)) ∧
    ∀ (fresh : UUID) (m : ModificationEdit) (ω : ModificationStmt → Outcome) res w',
      (h.saveModification fresh m).run ω w = (res, w') →
      (∀ saved, res = .ok (some saved) → saved ∈ w'.db.menuItemModifications ∧
        (parseMoney m.delta m.money = some saved.priceDeltaCents.toInt ↔ (parseMoney m.delta m.money).isSome)) ∧
      ((¬ ∃ saved, res = .ok (some saved)) → w' = w) := by
  refine ⟨fun ω res w' hrun => ?_, fun fresh m ω res w' hrun => ?_⟩
  · obtain ⟨rfl, hnone⟩ | ⟨hsaved, hanswered⟩ := saveMenuItem_run hliving hshown hread hrun
    · refine ⟨fun _ => ⟨(Option.filter_eq_some_iff.mp hliving).1, fun c id => Iff.rfl, fun id => Iff.rfl⟩, ?_⟩
      exact fun a ha => absurd ha (hnone a)
    have hkeeps : DialogKeeps e w.db row → DishKept row w.db w'.db := fun hdialog =>
      ⟨hsaved.stored.mpr ⟨hdialog.columns, hdialog.savedAgain⟩, fun c => hsaved.marks c (hdialog.marks c),
        hsaved.filters hdialog.filters⟩
    refine ⟨hkeeps, fun a ha => ?_⟩
    obtain ⟨hmarks, hfilters⟩ := hanswered a ha
    refine ⟨⟨fun hkept => ?_, hkeeps⟩, hsaved.columns, fun c => ⟨hmarks c, hsaved.marks c⟩, hfilters, hsaved.filters⟩
    obtain ⟨hcolumns, hagain⟩ := hsaved.stored.mp hkept.stored
    exact ⟨hcolumns, hagain, fun c => hmarks c (hkept.marks c), hfilters hkept.filters⟩
  · obtain ⟨hsaved, hnone⟩ := saveModification_run hrun
    refine ⟨fun saved hres => ?_, hnone⟩
    obtain ⟨hprice, hmem⟩ := hsaved saved hres
    refine ⟨hmem, ?_⟩
    rw [hprice, ModificationEdit.cents]
    cases parseMoney m.delta m.money with
    | none => simp
    | some cents => simp

end Saved

/-! ## A kebab for noon -/

/-- A kebab that the account 1 was the last to change -/
def noonKebab : MenuItemRow :=
  { id := ⟨4⟩, restaurantID := ⟨2⟩, categoryID := some ⟨12⟩, externalID := some "7", name := "Kebab"
    description := none, imageID := none, priceCents := 500, available := true, deletedAt := none, createdAt := 0
    updatedAt := 0, updatedBy := some ⟨1⟩ }

/-- `kebabMenu` with it, offered at noon -/
def noonMenu : Db :=
  { kebabMenu with menuItems := [noonKebab], menuItemAvailability := [{ menuItemID := ⟨4⟩, filterID := ⟨11⟩ }] }

theorem noonMenu_valid : noonMenu.Valid where
  keys := by constructor <;> decide +kernel
  refs := by constructor <;> decide +kernel
  checks := by constructor <;> decide +kernel

/-- The account saves it again, on a page that knows these tags. -/
def noonEdit (tags : List String) : DishEdit :=
  { restaurantID := UUID.string ⟨2⟩
    principal := some { userID := ⟨1⟩, isAdmin := false }
    t := id
    money := { digits := 2, perMajor := 100 }
    categories := [⟨UUID.string ⟨12⟩, "Kebabs"⟩]
    reference := fun c => if c = .tag then tags else []
    item := publicDish noonKebab.scan (fun c => targetsIn (c.linksOf [⟨4⟩] noonMenu) ⟨4⟩)
      (noonMenu.filtersByMenuItem .ascii ⟨2⟩ ⟨4⟩)
    filters := some (some [UUID.string ⟨11⟩]) }

/-- A sauce is added to it, for a price that is no number. -/
def secretSauce : ModificationEdit :=
  { restaurantID := UUID.string ⟨2⟩
    itemID := UUID.string ⟨4⟩
    principal := some { userID := ⟨1⟩, isAdmin := false }
    money := { digits := 2, perMajor := 100 }
    name := "sauce"
    delta := "abc".toList
    existing := none
    sortOrder := 0 }

theorem noonKebab_shown (tags : List String) : DishShown noonMenu noonKebab (noonEdit tags).item :=
  dishShown_listed noonMenu_valid List.mem_cons_self .ascii List.mem_cons_self

theorem noonKebab_reads : ReadsDish .ascii noonMenu noonKebab := by
  constructor
  case marks =>
    intro c
    cases c <;> decide +kernel
  all_goals decide +kernel

theorem noonEdit_keeps : DialogKeeps (noonEdit [UUID.string ⟨10⟩]) noonMenu noonKebab where
  columns :=
    { externalID := ⟨by decide, inputValue_keeps_iff.mp (by decide +kernel)⟩
      name := inputValue_keeps_iff.mp (by decide +kernel)
      description := ⟨by decide, textareaValue_keeps_iff.mp (by decide +kernel)⟩
      price := by decide +kernel
      category := by decide +kernel }
  savedAgain := ⟨_, rfl, rfl⟩
  marks := by
    intro c
    cases c <;> unfold KeepsMarks <;> decide +kernel
  filters := by
    intro filters hfilters hsome
    obtain rfl : [UUID.string ⟨11⟩] = filters := Option.some.inj (Option.some.inj hfilters)
    decide +kernel

/-- With the tag on the page, the kebab is kept. -/
theorem saveMenuItem_keeps_kebab : ∃ a w',
    (((MenuHandlers.mk .ascii).saveMenuItem (noonEdit [UUID.string ⟨10⟩])).under Outcome.found).run (fun _ => .ok)
      ⟨noonMenu, 5000⟩ = (.ok (some a), w') ∧ DishKept noonKebab noonMenu w'.db := by
  have hok : ((((MenuHandlers.mk .ascii).saveMenuItem (noonEdit [UUID.string ⟨10⟩])).under Outcome.found).run
      (fun _ => .ok) ⟨noonMenu, 5000⟩).1.toOption.join.isSome = true := by decide +kernel
  rcases hrun : (((MenuHandlers.mk .ascii).saveMenuItem (noonEdit [UUID.string ⟨10⟩])).under Outcome.found).run
    (fun _ => .ok) ⟨noonMenu, 5000⟩ with ⟨x | _ | a, w'⟩
  · rw [hrun] at hok
    cases hok
  · rw [hrun] at hok
    cases hok
  · exact ⟨a, w', hrun, ((saveMenuItem_keeps_iff (h := .mk .ascii) (w := ⟨noonMenu, 5000⟩) (by decide +kernel)
      (noonKebab_shown _) noonKebab_reads).1 _ _ w' hrun).1 noonEdit_keeps⟩

/-- A tag that was invented after the page had fetched the others is taken away; and `abc` is saved as 0. -/
theorem saveMenuItem_keeps_not :
    (¬ ∀ (h : MenuHandlers) (w : World Db Time) (row : MenuItemRow) (e : DishEdit) (ω : DishStmt → Outcome)
      (res : Except ApiError (Option MenuResponse)) (w' : World Db Time), w.db.livingMenuItem row.id = some row →
      DishShown w.db row e.item → ReadsDish h.rt w.db row →
      ((h.saveMenuItem e).under Outcome.found).run ω w = (res, w') → DishKept row w.db w'.db) ∧
    ¬ ∀ (h : MenuHandlers) (w : World Db Time) (fresh : UUID) (m : ModificationEdit) (ω : ModificationStmt → Outcome)
      (saved : MenuItemModificationRow) (w' : World Db Time),
      (h.saveModification fresh m).run ω w = (.ok (some saved), w') → (parseMoney m.delta m.money).isSome := by
  constructor
  · intro hevery
    have hlost : Classification.tag.of ⟨4⟩ ((((MenuHandlers.mk .ascii).saveMenuItem (noonEdit [])).under
        Outcome.found).run (fun _ => .ok) ⟨noonMenu, 5000⟩).2.db = [] := by decide +kernel
    have hkept := hevery (.mk .ascii) ⟨noonMenu, 5000⟩ noonKebab (noonEdit []) (fun _ => .ok) _ _ (by decide +kernel)
      (noonKebab_shown _) noonKebab_reads rfl
    have htag := (hkept.marks .tag ⟨10⟩).mpr (by decide +kernel)
    rw [show noonKebab.id = ⟨4⟩ from rfl, hlost] at htag
    cases htag
  · intro hevery
    have hok : ((((MenuHandlers.mk .ascii).saveModification ⟨101⟩ secretSauce).run (fun _ => .ok)
        ⟨noonMenu, 5000⟩).1.toOption.join).isSome = true := by decide +kernel
    rcases hrun : ((MenuHandlers.mk .ascii).saveModification ⟨101⟩ secretSauce).run (fun _ => .ok) ⟨noonMenu, 5000⟩ with
      ⟨x | _ | saved, w'⟩
    · rw [hrun] at hok
      cases hok
    · rw [hrun] at hok
      cases hok
    · have hread := hevery _ _ _ _ _ _ _ hrun
      exact absurd hread (by decide +kernel)

end Doenerstag
