import Doenerstag.Api.MenuItems
import Doenerstag.Db.Restaurants

/-!
# No dish in a deleted category (F4.5)

Deleting a category takes its dishes out of it, those that the statement sees. A request that files
a dish under a category has looked at the category some statements before. Side by side, the two can
pass each other, and the dish is under a heading that no menu shows.

* `softDeleteCategory` — the statement, with its snapshot; `MenuHandlers.deleteCategory`.
* `CategoryCall` — creating a dish, a PATCH of one, deleting a category.
* `CategoryCall.Rely` — nobody deletes the category between a request's look at it and its write, and
  nobody files a dish under it between the deletion's snapshot and its commit.
* `Filed` — the invariant: every living dish has no category, or a living one of its restaurant.
* `filed_run` — **along every run that keeps to the relies, every committed state is so.**
* `filed_broken` — a run that does not.
-/

namespace Doenerstag

open ReadCommitted Prog

/-! ## Deleting a category (`internal/db/menu.go`, `internal/api/menu.go`) -/

/-- The tables after items were released from a category and it was marked. -/
@[simps] def Db.setMenu (db : Db) (items : List MenuItemRow) (categories : List MenuCategoryRow) : Db :=
  { db with menuItems := items, menuCategories := categories }

/-- `category_id = NULL`, with the trigger. -/
def MenuItemRow.release (actor : UUID) (now : Time) (m : MenuItemRow) : MenuItemRow :=
  m.update actor now fun m => { m with categoryID := none }

namespace Db

/-- The dish was in the category when the statement began. -/
def seenInCategory (seen : Db) (categoryID id : UUID) : Bool :=
  seen.menuItems.any fun m => m.id == id && m.categoryID == some categoryID

/-- The living category with the id. -/
def livingCategory (db : Db) (id : UUID) : Bool :=
  db.menuCategories.any fun c => c.id == id && c.deletedAt.isNone

/-- `WITH released AS (UPDATE menu_item …) UPDATE menu_category …`. The rows are those seen; each is
looked at again when it is written. -/
def softDeleteCategory (id actor : UUID) (now : Time) (seen db : Db) : Except PgError (Db × Nat) :=
  let released (m : MenuItemRow) := m.categoryID == some id && seen.seenInCategory id m.id
  let doomed (c : MenuCategoryRow) := seen.livingCategory id && c.id == id && c.deletedAt.isNone
  if !db.menuItems.any released && !db.menuCategories.any doomed then .ok (db, 0)
  else if (db.userByID actor).isNone then .error .foreignKeyViolation
  else .ok (db.setMenu
    (db.menuItems.map fun m => if released m then m.release actor now else m)
    (db.menuCategories.map fun c => if doomed c then { c with deletedAt := some (pgTime now) } else c),
    db.menuCategories.countP doomed)

end Db

inductive SoftDeleteCategoryStmt where
  | seen
  | commit
  deriving DecidableEq, Repr

def softDeleteCategory (id actor : UUID) : DbProgram SoftDeleteCategoryStmt Unit := do
  let rows ← (execSeen .seen .commit (Db.softDeleteCategory id actor)).mapError otherError
  Prog.require (rows != 0) .notFound

inductive DeleteCategoryStmt where
  /-- `restaurantID` -/
  | restaurant (s : MenuStmt)
  /-- `lookupCategory` -/
  | category
  | softDelete (s : SoftDeleteCategoryStmt)
  deriving DecidableEq, Repr

namespace MenuHandlers

variable (h : MenuHandlers)

def lookupCategory (cid : String) (restaurantID : UUID) :
    Handler DeleteCategoryStmt MenuCategoryRow := do
  let category ← loadParam h.rt cid (categoryByID .category)
  Prog.require (category.restaurantID == restaurantID) (.of codeNotFound)
  pure category

/-- `deleteCategory`, for the administrator only. The path names a category. -/
def deleteCategory (cid : String) (r : MenuRequest Unit) : Handler DeleteCategoryStmt Unit := do
  let restaurantID ← (h.restaurantID r).within .restaurant
  let principal ← .ofExcept (requireAdmin r.principal)
  let category ← h.lookupCategory cid restaurantID
  ((softDeleteCategory category.id principal.userID).within .softDelete).mapError fun e =>
    if e = .notFound then .of codeNotFound else .of codeDatabaseUnavailable

end MenuHandlers

/-! ## The calls -/

inductive CategoryCall where
  | create (id : UUID) (r : MenuRequest MenuHandlers.MenuItemRequest)
  | patch (r : MenuRequest MenuHandlers.PatchMenuItemRequest)
  | delete (cid : String) (r : MenuRequest Unit)

inductive CategoryCallStmt where
  | item (s : MenuStmt)
  | delete (s : DeleteCategoryStmt)
  deriving DecidableEq, Repr

namespace CategoryCall

def serve (h : MenuHandlers) : CategoryCall → Handler CategoryCallStmt Unit
  | create id r => do
    let _ ← (h.createItem id r).within .item
  | patch r => do
    let _ ← (h.patchItem r).within .item
  | delete cid r => (h.deleteCategory cid r).within .delete

/-- The category a request names, when it names one. -/
def named (h : MenuHandlers) : CategoryCall → Option UUID
  | create _ r => do
    let body ← r.body.toOption
    let id ← (parseOptionalUUID h.rt body.categoryID "category_id").toOption
    id
  | patch r => do
    let body ← r.body.toOption
    let value ← body.categoryID
    let id ← (parseOptionalUUID h.rt value "category_id").toOption
    id
  | delete cid _ => h.rt.parseUUID cid

end CategoryCall

/-! ## What a call relies on -/

/-- The category is there and is not deleted. -/
def LivingCategory (id : UUID) (w : World Db Time) : Prop := w.db.livingCategory id = true

/-- Nobody deletes the category. -/
def CategoryStays (id : UUID) (w w' : World Db Time) : Prop :=
  LivingCategory id w → LivingCategory id w'

/-- Nobody files another dish under the category. -/
def NoneFiled (id : UUID) (w w' : World Db Time) : Prop :=
  ∀ itemID, w'.db.seenInCategory id itemID = true → w.db.seenInCategory id itemID = true

/-- What a statement of a call about that category relies on while it waits. -/
def CategoryCallStmt.Rely (id : UUID) : CategoryCallStmt → World Db Time → World Db Time → Prop
  -- after the category was found
  | .item .create => CategoryStays id
  | .item (.update .update) => CategoryStays id
  -- after the dishes of the category were seen
  | .delete (.softDelete .commit) => NoneFiled id
  | _ => fun _ _ => True

def CategoryRely (about : Option UUID) (l : CategoryCallStmt) (w w' : World Db Time) : Prop :=
  ∀ id, about = some id → l.Rely id w w'

/-- The category of a dish is a living one of its restaurant. -/
def Db.FiledWell (db : Db) (m : MenuItemRow) : Prop :=
  ∀ id, m.categoryID = some id → ∃ c ∈ db.menuCategories,
    c.id = id ∧ c.restaurantID = m.restaurantID ∧ c.deletedAt = none

/-- Every living dish has no category, or a living one of its restaurant. -/
structure Filed (w : World Db Time) : Prop where
  keys : (w.db.menuCategories.map MenuCategoryRow.id).Nodup
  items : ∀ m ∈ w.db.menuItems, m.deletedAt = none → w.db.FiledWell m

/-! ## What the writes leave -/

section Writes

variable {w : World Db Time}

/-- A row that the schema accepts is filed well, when its category lives. -/
theorem Filed.filedWell (h : Filed w) {rt : Runtime} {row : MenuItemRow}
    (hcheck : w.db.checkMenuItem rt row = .ok ())
    (hliving : ∀ id, row.categoryID = some id → LivingCategory id w) : w.db.FiledWell row := by
  intro id hid
  obtain ⟨c, hc, hselected⟩ := List.any_eq_true.mp (hliving id hid)
  rw [Bool.and_eq_true, beq_iff_eq, Option.isNone_iff_eq_none] at hselected
  unfold Db.checkMenuItem at hcheck
  split_ifs at hcheck with _ _ hknown
  unfold Db.knowsMenuItemReferences at hknown
  simp only [hid, Option.all_some, Bool.not_eq_true, Bool.not_eq_false', Bool.and_eq_true] at hknown
  obtain ⟨d, hd, hsame⟩ := List.any_eq_true.mp hknown.1.1.2
  rw [Bool.and_eq_true, beq_iff_eq, beq_iff_eq] at hsame
  -- the category that lives is the one the foreign key finds
  have heq : d = c := List.inj_on_of_nodup_map h.keys hd hc (hsame.2.trans hselected.1.symm)
  rw [heq] at hsame
  exact ⟨c, hc, hselected.1, hsame.1, hselected.2⟩

theorem Filed.insert (h : Filed w) {rt : Runtime} {row : MenuItemRow} {r : Db × Option MenuItem}
    (hliving : ∀ id, row.categoryID = some id → LivingCategory id w)
    (hu : Db.insertMenuItem rt row w.db = .ok r) : Filed { w with db := r.1 } := by
  unfold Db.insertMenuItem at hu
  split_ifs at hu
  cases hcheck : w.db.checkMenuItem rt row with
  | error x => simp [hcheck, Except.map] at hu
  | ok u =>
    simp only [hcheck, Except.map, Except.ok.injEq] at hu
    subst hu
    refine ⟨h.keys, fun m hm hdeleted => ?_⟩
    rcases List.mem_append.mp hm with hold | hnew
    · exact h.items m hold hdeleted
    · rw [List.mem_singleton.mp hnew]
      exact h.filedWell hcheck hliving

theorem Filed.update (h : Filed w) {rt : Runtime} {id actor : UUID} {change : MenuItemUpdate}
    {now : Time} {r : Db × Option MenuItem}
    (hliving : ∀ category, change.categoryID = some (some category) → LivingCategory category w)
    (hu : Db.updateMenuItem rt id actor change.apply now w.db = .ok r) :
    Filed { w with db := r.1 } := by
  unfold Db.updateMenuItem at hu
  cases hfound : w.db.livingMenuItem id with
  | none =>
    simp only [hfound] at hu
    cases hu
    exact h
  | some m =>
    simp only [hfound] at hu
    cases hcheck : w.db.checkMenuItem rt (m.update actor now change.apply) with
    | error x => simp [hcheck, Except.map] at hu
    | ok u =>
      simp only [hcheck, Except.map, Except.ok.injEq] at hu
      subst hu
      obtain ⟨hrow, hdeleted⟩ := Option.filter_eq_some_iff.mp hfound
      have hmem : m ∈ w.db.menuItems := List.mem_of_find?_eq_some hrow
      have hcategory : (m.update actor now change.apply).categoryID =
          change.categoryID.getD m.categoryID := by
        unfold MenuItemRow.update
        split_ifs with hsame
        · exact (congrArg MenuItemRow.categoryID hsame).symm
        · rfl
      have hwell : w.db.FiledWell (m.update actor now change.apply) := by
        refine h.filedWell hcheck fun category hid => ?_
        rw [hcategory] at hid
        cases hchange : change.categoryID with
        | some new =>
          rw [hchange] at hid
          exact hliving category (hchange.trans (congrArg some hid))
        | none =>
          -- the dish stays where it is
          rw [hchange] at hid
          obtain ⟨c, hc, hcid, -, hcliving⟩ :=
            h.items m hmem (Option.isNone_iff_eq_none.mp hdeleted) category hid
          refine List.any_eq_true.mpr ⟨c, hc, ?_⟩
          simp [hcid, hcliving]
      refine ⟨h.keys, fun p hp hliving' => ?_⟩
      obtain ⟨q, hq, rfl⟩ := List.mem_map.mp hp
      split_ifs at hliving' ⊢
      · exact hwell
      · exact h.items q hq hliving'

/-- A category is deleted whose dishes have all been seen. -/
theorem Filed.softDelete (h : Filed w) {id actor : UUID} {now : Time} {seen : Db} {r : Db × Nat}
    (hseen : ∀ itemID, w.db.seenInCategory id itemID = true →
      seen.seenInCategory id itemID = true)
    (hu : Db.softDeleteCategory id actor now seen w.db = .ok r) : Filed { w with db := r.1 } := by
  unfold Db.softDeleteCategory at hu
  simp only at hu
  split_ifs at hu
  · cases hu
    exact h
  cases hu
  have hid : ∀ c : MenuCategoryRow, (if seen.livingCategory id && c.id == id && c.deletedAt.isNone then
      { c with deletedAt := some (pgTime now) } else c).id = c.id := by
    intro c
    split_ifs <;> rfl
  constructor
  case keys =>
    show ((w.db.menuCategories.map _).map MenuCategoryRow.id).Nodup
    rw [List.map_map]
    exact (List.map_congr_left fun c _ => hid c).symm ▸ h.keys
  case items =>
    intro p hp hliving category hcategory
    obtain ⟨m, hm, rfl⟩ := List.mem_map.mp hp
    have hrelease : (m.release actor now).categoryID = none := by
      unfold MenuItemRow.release MenuItemRow.update
      split_ifs with hsame
      · exact (congrArg MenuItemRow.categoryID hsame).symm
      · rfl
    -- a dish that stays in its category is not in this one
    split_ifs at hliving hcategory ⊢ with hreleased
    · rw [hrelease] at hcategory
      cases hcategory
    · have hother : category ≠ id := by
        intro heq
        rw [heq] at hcategory
        refine hreleased ?_
        rw [hcategory, hseen m.id (List.any_eq_true.mpr ⟨m, hm, by simp [hcategory]⟩)]
        simp
      obtain ⟨c, hc, hcid, hrestaurant, hcliving⟩ := h.items m hm hliving category hcategory
      refine ⟨c, List.mem_map.mpr ⟨c, hc, ?_⟩, hcid, hrestaurant, hcliving⟩
      have hne : (c.id == id) = false := beq_eq_false_iff_ne.mpr (hcid ▸ hother)
      simp [hne]

/-- Setting the links of a dish leaves the menu as it is. -/
theorem Filed.setLinks (h : Filed w) (c : Classification) (rows : List MenuItemLinkRow) :
    Filed { w with db := c.setLinks w.db rows } := by
  cases c <;> exact ⟨h.keys, h.items⟩

end Writes

/-! ## The calls hold -/

section Calls

variable (h : MenuHandlers)

/-- The invariant is all that is asked of a step. -/
def NoGuarantee {ℓ : Type} (_ : ℓ) (_ _ : World Db Time) : Prop := True

theorem holds_menuReading {ℓ χ α : Type} {R : ℓ → World Db Time → World Db Time → Prop}
    {L : ℓ → Prop} {p : Program ℓ Db Time χ α} (hp : p.Reads L) (w : World Db Time) :
    p.Holds Filed R NoGuarantee (Ends fun _ _ => True) w :=
  (hp.holds (fun _ _ _ _ => trivial) w).mono fun _ _ _ _ _ => trivial

/-- What a request knows of the category it files a dish under. -/
def FilesUnder (about category : Option UUID) (w : World Db Time) : Prop :=
  ∀ id, category = some id → about = some id ∧ LivingCategory id w

theorem FilesUnder.stays {about category : Option UUID} {w w' : World Db Time} (h : FilesUnder about category w)
    (hliving : ∀ id, about = some id → LivingCategory id w → LivingCategory id w') :
    FilesUnder about category w' := by
  intro id hid
  obtain ⟨habout, hthere⟩ := h id hid
  exact ⟨habout, hliving id habout hthere⟩

theorem holds_parseCategory {about : Option UUID} (restaurantID : UUID) (value : Option String)
    (habout : ∀ id, parseOptionalUUID h.rt value "category_id" = .ok (some id) → about = some id)
    (w : World Db Time) :
    (h.parseCategory restaurantID value).Holds Filed (fun l => CategoryRely about (.item l))
      NoGuarantee (Ends fun category w => FilesUnder about category w) w := by
  refine holds_seq (M := fun id _ => parseOptionalUUID h.rt value "category_id" = .ok id)
    (ends_ofExcept fun _ hid => hid) fun id w hid => ?_
  cases id with
  | none => exact ends_done fun id hnone => by cases hnone
  | some id =>
    refine holds_seq (M := fun _ w => LivingCategory id w)
      (ends_mapError (ends_mapError (holds_read fun w' _ _ => ⟨trivial, fun e row hrow => ?_⟩)))
      fun row w hliving => ?_
    · have hfound : (w'.db.menuCategories.find? fun c => c.id == id && c.deletedAt.isNone) =
          some row := Outcome.row_eq_ok hrow
      have hselected := List.find?_some hfound
      exact List.any_eq_true.mpr ⟨row, List.mem_of_find?_eq_some hfound, hselected⟩
    · refine holds_seq (M := fun _ w => LivingCategory id w) (ends_require fun _ => hliving)
        fun _ w hliving => ends_done ?_
      rintro _ ⟨⟩
      exact ⟨habout id hid, hliving⟩

/-- Replacing the links of a dish changes nothing on the menu. -/
theorem holds_setLinks {R : MenuStmt → World Db Time → World Db Time → Prop} (c : Classification)
    (itemID : UUID) (linked : List UUID) (actor : UUID) (w : World Db Time) :
    (MenuHandlers.setLinks c itemID linked actor).Holds Filed R NoGuarantee
      (Ends fun _ _ => True) w := by
  have hsteps := replaceLinks_steps (P := fun w w' => Filed w → Filed w' ∧ True) c itemID linked actor
    (fun w hI => ⟨hI, trivial⟩) fun w rows hI => ⟨hI.setLinks c rows, trivial⟩
  exact (Steps.holds ((Steps.within hsteps).mapError _) w).mono fun _ _ _ _ _ => trivial

theorem holds_setSelected {R : MenuStmt → World Db Time → World Db Time → Prop} (c : Classification)
    (itemID : UUID) (ids : Option (List String)) (actor : UUID) (w : World Db Time) :
    (h.setSelected c itemID ids actor).Holds Filed R NoGuarantee (Ends fun _ _ => True) w := by
  cases ids with
  | none => exact ends_done trivial
  | some values =>
    exact holds_seq (M := fun _ _ => True) (ends_ofExcept fun _ _ => trivial) fun linked w _ =>
      holds_setLinks c itemID linked actor w

/-- What follows the row of a dish: its links, and the read-back. -/
theorem holds_rest {R : MenuStmt → World Db Time → World Db Time → Prop} {α : Type} {id : UUID}
    {status : Nat} {links : Handler MenuStmt α} {w : World Db Time}
    (hlinks : links.Holds Filed R NoGuarantee (Ends fun _ _ => True) w) :
    (links >>= fun _ => MenuHandlers.writeItem id status).Holds Filed R NoGuarantee
      (Ends fun _ _ => True) w :=
  holds_seq hlinks fun _ w _ => holds_menuReading (MenuHandlers.writeItem_reads id status) w

theorem holds_createMenuItem (id : UUID) (r : MenuRequest MenuHandlers.MenuItemRequest)
    (w : World Db Time) :
    (h.createItem id r).Holds Filed
      (fun l => CategoryRely ((CategoryCall.create id r).named h) (.item l)) NoGuarantee
      (Ends fun _ _ => True) w := by
  refine holds_seq (M := fun accepted w =>
    FilesUnder ((CategoryCall.create id r).named h) accepted.2.1.categoryID w) ?_ ?_
  · refine holds_seq (holds_menuReading (h.restaurantID_reads r) w) fun restaurantID w _ => ?_
    refine holds_seq (M := fun _ _ => True) (ends_ofExcept fun _ _ => trivial) fun p w _ => ?_
    refine holds_seq (M := fun body _ => r.body = .ok body) (ends_ofExcept fun _ hbody => hbody)
      fun body w hbody => ?_
    refine holds_seq (M := fun _ _ => True) (ends_ofExcept fun _ _ => trivial) fun _ w _ => ?_
    refine holds_seq (M := fun _ _ => True) (ends_ofExcept fun _ _ => trivial) fun _ w _ => ?_
    refine holds_seq (M := fun _ _ => True) (ends_ofExcept fun _ _ => trivial) fun _ w _ => ?_
    refine holds_seq (M := fun _ _ => True) (ends_ofExcept fun _ _ => trivial) fun _ w _ => ?_
    refine holds_seq (holds_parseCategory h restaurantID body.categoryID (fun id hid => ?_) w)
      fun category w hfiles => ?_
    · show (r.body.toOption.bind fun body => (parseOptionalUUID h.rt body.categoryID _).toOption.bind
        fun id => id) = _
      rw [hbody]
      exact congrArg (fun e => e.toOption.bind fun id => id) hid
    exact holds_seq (M := fun _ w => FilesUnder _ category w) (ends_ofExcept fun _ _ => hfiles)
      fun _ w hfiles => ends_done hfiles
  · rintro ⟨actor, item, body⟩ w hfiles
    refine holds_seq (M := fun _ _ => True) (ends_mapError (ends_mapError ?_)) fun created w _ => ?_
    · -- the category that was found is still there
      refine holds_write fun w' hwait hI e => ?_
      have hfiles' := star_keeps (fun _ _ hR (hfiles : FilesUnder _ _ _) => hfiles.stays hR) hwait hfiles
      refine ⟨?_, trivial, fun _ _ => trivial⟩
      cases hreturned : (e.returned (w'.db.insertMenuItem h.rt (item.row id actor w'.now)) :
          Except (StmtError PgError) (Db × MenuItem)) with
      | error x => exact hI
      | ok result =>
        exact hI.insert (fun id hid => (hfiles' id hid).2) (Outcome.returned_eq_ok hreturned)
    · refine holds_rest ?_
      refine holds_seq (M := fun _ _ => True) (ends_ofExcept fun _ _ => trivial) fun _ w _ => ?_
      refine holds_seq (M := fun _ _ => True) (ends_ofExcept fun _ _ => trivial) fun _ w _ => ?_
      refine holds_seq (M := fun _ _ => True) (ends_ofExcept fun _ _ => trivial) fun _ w _ => ?_
      refine holds_seq (holds_setLinks _ _ _ _ w) fun _ w _ => ?_
      exact holds_seq (holds_setLinks _ _ _ _ w) fun _ w _ => holds_setLinks _ _ _ _ w

/-- A field that names no category keeps what is known. -/
theorem ends_field {α β : Type} {R : MenuStmt → World Db Time → World Db Time → Prop}
    {field : Option α} {check : α → Except ApiError β} {w : World Db Time} :
    (Prog.ofExcept (field.mapM check) : Handler MenuStmt (Option β)).Holds Filed R NoGuarantee
      (Ends fun _ _ => True) w :=
  ends_ofExcept fun _ _ => trivial

theorem holds_validateItemPatch (restaurantID : UUID)
    (r : MenuRequest MenuHandlers.PatchMenuItemRequest) {body : MenuHandlers.PatchMenuItemRequest}
    (hbody : r.body = .ok body) (w : World Db Time) :
    (h.validateItemPatch restaurantID body).Holds Filed
      (fun l => CategoryRely ((CategoryCall.patch r).named h) (.item l)) NoGuarantee
      (Ends fun change w =>
        FilesUnder ((CategoryCall.patch r).named h) (change.categoryID.bind id) w) w := by
  refine holds_seq ends_field fun _ w _ => holds_seq ends_field fun _ w _ => ?_
  refine holds_seq ends_field fun _ w _ => holds_seq ends_field fun _ w _ => ?_
  refine holds_seq (M := fun category w =>
    FilesUnder ((CategoryCall.patch r).named h) (category.bind id) w) ?_ fun category w hfiles => ?_
  · cases hcategory : body.categoryID with
    | none => exact ends_done fun id hid => by cases hid
    | some value =>
      refine holds_seq (holds_parseCategory h restaurantID value (fun id hid => ?_) w)
        fun category w hfiles => ends_done hfiles
      show (r.body.toOption.bind fun body => body.categoryID.bind fun value =>
        (parseOptionalUUID h.rt value _).toOption.bind fun id => id) = _
      rw [hbody]
      show (body.categoryID.bind fun value => _) = _
      rw [hcategory]
      exact congrArg (fun e => e.toOption.bind fun id => id) hid
  · refine holds_seq (M := fun _ w => FilesUnder _ (category.bind id) w) ?_ fun _ w hfiles =>
      ends_done hfiles
    cases body.imageID with
    | none => exact ends_done hfiles
    | some value =>
      exact holds_seq (M := fun _ w => FilesUnder _ (category.bind id) w)
        (ends_ofExcept fun _ _ => hfiles) fun _ w hfiles => ends_done hfiles

theorem holds_patchMenuItem (r : MenuRequest MenuHandlers.PatchMenuItemRequest) (w : World Db Time) :
    (h.patchItem r).Holds Filed (fun l => CategoryRely ((CategoryCall.patch r).named h) (.item l))
      NoGuarantee (Ends fun _ _ => True) w := by
  refine holds_seq (M := fun accepted w => FilesUnder ((CategoryCall.patch r).named h)
    (accepted.2.2.1.categoryID.bind fun category => category) w) ?_ ?_
  · refine holds_seq (holds_menuReading (h.restaurantID_reads r) w) fun restaurantID w _ => ?_
    refine holds_seq (M := fun _ _ => True) (ends_ofExcept fun _ _ => trivial) fun p w _ => ?_
    refine holds_seq (holds_menuReading (h.lookupMenuItem_reads r restaurantID) w) fun item w _ => ?_
    refine holds_seq (M := fun body _ => r.body = .ok body) (ends_ofExcept fun _ hbody => hbody)
      fun body w hbody => ?_
    exact holds_seq (holds_validateItemPatch h restaurantID r hbody w) fun change w hfiles =>
      ends_done hfiles
  · rintro ⟨actor, itemID, change, body⟩ w hfiles
    refine holds_seq (M := fun _ _ => True) (ends_mapError (holds_within ?_)) fun updated w _ => ?_
    · unfold updateMenuItem
      split_ifs
      · exact holds_menuReading (MenuHandlers.menuItemByID_reads (L := fun _ => True) trivial itemID) w
      -- the category that was found is still there
      refine ends_mapError (holds_write fun w' hwait hI e => ?_)
      have hfiles' := star_keeps (fun _ _ hR (hfiles : FilesUnder _ _ _) => hfiles.stays hR) hwait hfiles
      refine ⟨?_, trivial, fun _ _ => trivial⟩
      cases hreturned : (e.returned (w'.db.updateMenuItem h.rt itemID actor change.apply w'.now) :
          Except (StmtError PgError) (Db × MenuItem)) with
      | error x => exact hI
      | ok result =>
        refine hI.update (fun category hcategory => ?_) (Outcome.returned_eq_ok hreturned)
        exact (hfiles' category (by rw [hcategory]; rfl)).2
    · refine holds_rest ?_
      refine holds_seq (holds_setSelected h _ _ _ _ w) fun _ w _ => ?_
      exact holds_seq (holds_setSelected h _ _ _ _ w) fun _ w _ => holds_setSelected h _ _ _ _ w

theorem holds_deleteCategory (cid : String) (r : MenuRequest Unit) (w : World Db Time) :
    (h.deleteCategory cid r).Holds Filed
      (fun l => CategoryRely ((CategoryCall.delete cid r).named h) (.delete l)) NoGuarantee
      (Ends fun _ _ => True) w := by
  refine holds_seq (holds_menuReading (L := fun _ => True) (h.restaurantID_reads r).within w)
    fun restaurantID w _ => ?_
  refine holds_seq (M := fun _ _ => True) (ends_ofExcept fun _ _ => trivial) fun p w _ => ?_
  refine holds_seq (M := fun category _ => h.rt.parseUUID cid = some category.id) ?_
    fun category w hnamed => ?_
  · refine holds_seq (M := fun category _ => h.rt.parseUUID cid = some category.id) ?_
      fun category w hid => holds_seq (M := fun _ _ => h.rt.parseUUID cid = some category.id)
        (ends_require fun _ => hid) fun _ w hid => ends_done hid
    unfold loadParam
    cases hparse : h.rt.parseUUID cid with
    | none => exact ends_fail _ w
    | some id =>
      refine ends_mapError (ends_mapError (holds_read fun w' _ _ => ⟨trivial, fun e row hrow => ?_⟩))
      have hselected := List.find?_some (Outcome.row_eq_ok hrow)
      rw [Bool.and_eq_true, beq_iff_eq] at hselected
      exact congrArg some hselected.1.symm
  refine ends_mapError (holds_within ?_)
  refine holds_seq (M := fun _ _ => True) (ends_mapError ?_) fun rows w _ =>
    ends_require fun _ => trivial
  -- the dishes that were seen in the category are all that are in it
  refine holds_execSeen (fun w₀ w => ∀ itemID, w.db.seenInCategory category.id itemID = true →
    w₀.db.seenInCategory category.id itemID = true) (fun _ _ => trivial) (fun _ _ _ hin => hin) ?_ ?_
  · intro w₀ w w' hR hF itemID hin
    exact hF itemID (hR category.id hnamed itemID hin)
  · intro w₀ w r hI hF hu
    exact ⟨hI.softDelete hF hu, trivial⟩

/-- **A call holds**: within its relies, no dish is left in a deleted category. -/
theorem CategoryCall.holds (call : CategoryCall) (w : World Db Time) :
    (call.serve h).Holds Filed (CategoryRely (call.named h)) NoGuarantee (fun _ _ => True) w := by
  cases call with
  | create id r =>
    refine Holds.ends (M := fun _ _ => True) (holds_seq (holds_within (holds_createMenuItem h id r w)) ?_)
    exact fun _ _ _ => ends_done trivial
  | patch r =>
    refine Holds.ends (M := fun _ _ => True) (holds_seq (holds_within (holds_patchMenuItem h r w)) ?_)
    exact fun _ _ _ => ends_done trivial
  | delete cid r => exact (holds_within (holds_deleteCategory h cid r w)).ends

end Calls

/-! ## The system -/

/-- The calls at their start. A statement is labelled with the category its call names. -/
def arrivedCategoryCalls {ι : Type} (h : MenuHandlers) (calls : ι → CategoryCall)
    (w : World Db Time) :
    Config ι (Option UUID × CategoryCallStmt) Outcome (World Db Time) ApiError Unit where
  state := w
  procs := fun i => ((calls i).serve h).within fun l => ((calls i).named h, l)

/-- **Every living dish has no category, or a living one of its restaurant**, along every run in
which nobody deletes a category between a request's look at it and its write, and nobody files a
dish under one between the snapshot of its deletion and the commit. -/
theorem filed_run {ι : Type} [DecidableEq ι] (h : MenuHandlers) (calls : ι → CategoryCall)
    (w : World Db Time) (hfiled : Filed w)
    {c : Config ι (Option UUID × CategoryCallStmt) Outcome (World Db Time) ApiError Unit}
    (hrun : Run OnlyTime (fun l => CategoryRely l.1 l.2) (arrivedCategoryCalls h calls w) c) :
    Filed c.state := by
  have hsafe : (arrivedCategoryCalls h calls w).Safe Filed (fun l => CategoryRely l.1 l.2)
      NoGuarantee :=
    ⟨hfiled, fun i => holds_within ((calls i).holds h w)⟩
  have htime : ∀ w₁ w₂ : World Db Time, OnlyTime w₁ w₂ → Filed w₁ → Filed w₂ := by
    intro w₁ w₂ hsame hI
    rw [OnlyTime] at hsame
    constructor
    · rw [hsame]
      exact hI.keys
    · rw [hsame]
      exact hI.items
  exact (hsafe.run htime hrun).inv

/-! ## A dish of the Bistro -/

/-- `lunch`, the Bistro's menu with a category. -/
def lunchMenu : Db :=
  lunch.setMenu lunch.menuItems
    [{ id := ⟨7⟩, restaurantID := ⟨2⟩, name := "Döner", sortOrder := 0, deletedAt := none }]

/-- Anna files the kebab under that category. -/
def fileKebab : CategoryCall :=
  .patch { id := (UUID.mk 2).string, mid := (UUID.mk 4).string
           principal := some { userID := ⟨1⟩, isAdmin := false }
           body := .ok { categoryID := some (some (UUID.mk 7).string), externalID := none
                         name := none, description := none, imageID := none, priceCents := none
                         available := none, ids := fun _ => none } }

/-- The administrator deletes the category. -/
def deleteDoener : CategoryCall :=
  .delete (UUID.mk 7).string
    { id := (UUID.mk 2).string, mid := ""
      principal := some { userID := ⟨1⟩, isAdmin := true }, body := .ok () }

def doenerCategory (deletes : Bool) : CategoryCall := if deletes then deleteDoener else fileKebab

/-- The two requests, at their start. -/
def closingDoener :
    Config Bool (Option UUID × CategoryCallStmt) Outcome (World Db Time) ApiError Unit :=
  arrivedCategoryCalls { rt := .ascii } doenerCategory { db := lunchMenu, now := 0 }

theorem lunchMenu_filed : Filed { db := lunchMenu, now := 0 } := by
  constructor
  · decide +kernel
  · intro m hm _ id hid
    obtain rfl := List.mem_singleton.mp hm
    cases hid

/-- The dish is filed first, and the category stays. -/
theorem filed_run_kebab : Filed (closingDoener.advance false (.replicate 12 .ok)).state := by
  have hnotYet : ∀ (j : Bool) l, j ≠ false → (closingDoener.procs j).waitsAt = some l →
      ∀ w w', CategoryRely l.1 l.2 w w' := by
    intro j l hj hl w w'
    have hlookup : (closingDoener.procs true).waitsAt =
        some (some ⟨7⟩, .delete (.restaurant .restaurant)) := by decide +kernel
    cases j with
    | false => exact absurd rfl hj
    | true =>
      cases hlookup.symm.trans hl
      exact fun _ _ => trivial
  exact filed_run { rt := .ascii } doenerCategory { db := lunchMenu, now := 0 } lunchMenu_filed
    (run_advance_others hnotYet _)

/-- The category is deleted between the look at it and the write. -/
def doenerDeleted :
    Config Bool (Option UUID × CategoryCallStmt) Outcome (World Db Time) ApiError Unit :=
  ((closingDoener.advance false (.replicate 3 .ok)).advance true (.replicate 6 .ok)).advance false
    (.replicate 12 .ok)

/-- Without the relies, a living dish is in a deleted category. -/
theorem filed_broken :
    ¬ ∀ (h : MenuHandlers) (calls : Bool → CategoryCall) (w : World Db Time), Filed w →
      ∀ c : Config Bool (Option UUID × CategoryCallStmt) Outcome (World Db Time) ApiError Unit,
      Run OnlyTime (fun _ _ _ => True) (arrivedCategoryCalls h calls w) c → Filed c.state := by
  intro h
  have hquiet : ∀ (c : Config Bool (Option UUID × CategoryCallStmt) Outcome (World Db Time)
      ApiError Unit) m c', Undisturbed (fun _ _ _ => True) c m c' := fun _ _ _ _ _ _ _ => trivial
  have hrun : Run OnlyTime (fun _ _ _ => True) closingDoener doenerDeleted :=
    ((run_advance hquiet _ _ _).trans (run_advance hquiet _ _ _)).trans (run_advance hquiet _ _ _)
  have hfiled := h { rt := .ascii } doenerCategory { db := lunchMenu, now := 0 } lunchMenu_filed _ hrun
  have hbroken : ∃ m ∈ doenerDeleted.state.db.menuItems, m.deletedAt = none ∧
      m.categoryID = some ⟨7⟩ ∧
      ∀ c ∈ doenerDeleted.state.db.menuCategories, c.id = ⟨7⟩ → c.deletedAt ≠ none := by
    decide +kernel
  obtain ⟨m, hm, hliving, hcategory, hdeleted⟩ := hbroken
  obtain ⟨c, hc, hid, -, hstays⟩ := hfiled.items m hm hliving ⟨7⟩ hcategory
  exact hdeleted c hc hid hstays

end Doenerstag
