import Doenerstag.Db.CleanupRun

/-!
# The dry run and the real run

A dry run counts every step against the state it starts from, a real run against what the earlier
steps left. The predicates only ever grow: what may go at the start may go later. So the counts of a
step agree exactly when nothing becomes removable in the meantime.

* `Db.NothingHeldByWaste` — no row that goes is referred to at the start.
* `cleanup_dryRun_steps_iff` — **the dry run's report is the real run's exactly in such states.**
-/

namespace Doenerstag

open Tables

/-- A larger predicate counts as much as a smaller one only when it selects the same. -/
theorem countP_eq_countP_iff {α : Type} {p q : α → Bool} {rows : List α}
    (himp : ∀ x ∈ rows, p x = true → q x = true) :
    rows.countP p = rows.countP q ↔ ∀ x ∈ rows, q x = true → p x = true := by
  induction rows with
  | nil => simp
  | cons x rows ih =>
    have hrest := fun y hy => himp y (List.mem_cons_of_mem x hy)
    have hx := himp x List.mem_cons_self
    have hle := List.countP_mono_left hrest
    rw [List.forall_mem_cons, ← ih hrest]
    cases hp : p x <;> cases hq : q x <;> simp [hp, hq] at hx ⊢
    omega

/-- What no row refers to, none of those that are left refers to. -/
theorem any_keep_eq_false {α : Type} {p : α → Bool} {rows : List α} (doomed : α → Bool)
    (h : rows.any p = false) : (keep doomed rows).any p = false := by
  rw [List.any_eq_false] at h ⊢
  exact fun x hx => h x (mem_keep.1 hx).1

namespace Db

/-- Every row that a real run removes is referred to by no row at all when the run begins. It fails
where something that is due to go is the last to refer to another row: an order past the retention
to a dish or a modification that left the menu, such a dish to its category, its restaurant or its
picture, and so on. -/
structure NothingHeldByWaste (cutoff uploadedBefore : Time) (db : Db) : Prop where
  modifications : ∀ m ∈ db.menuItemModifications, db.modificationGoes cutoff m = true →
    (db.orderItemModifications.any fun o => o.modificationID == some m.id) = false
  menuItems : ∀ m ∈ db.menuItems, db.menuItemGoes cutoff m = true →
    (db.orderItems.any fun o => o.menuItemID == m.id) = false
  categories : ∀ c ∈ db.menuCategories, db.categoryGoes cutoff c = true →
    (db.menuItems.any fun m => m.categoryID == some c.id) = false
  restaurants : ∀ r ∈ db.restaurants, db.restaurantGoes cutoff r = true →
    (db.foodOrders.any fun o => o.restaurantID == r.id) = false ∧
      (db.menuItems.any fun m => m.restaurantID == r.id) = false ∧
      (db.menuCategories.any fun c => c.restaurantID == r.id) = false
  images : ∀ i ∈ db.images, db.imageGoes cutoff uploadedBefore i = true →
    (db.restaurants.any fun r => r.logoImageID == some i.id) = false ∧
      (db.menuItems.any fun m => m.imageID == some i.id) = false

/-! ## Each step

What may go at the start goes, and the counts agree when the converse holds. -/

variable (cutoff uploadedBefore : Time) (db : Db)

theorem modifications_count_iff :
    db.menuItemModifications.countP db.unusedModification =
        db.menuItemModifications.countP (db.modificationGoes cutoff) ↔
      ∀ m ∈ db.menuItemModifications, db.modificationGoes cutoff m = true →
        (db.orderItemModifications.any fun o => o.modificationID == some m.id) = false := by
  rw [countP_eq_countP_iff]
  · refine forall₃_congr fun m _ hgoes => ?_
    have hdeleted := (Bool.and_eq_true_iff.1 hgoes).1
    simp [unusedModification, hdeleted]
  · intro m _ hunused
    simp only [unusedModification, Bool.and_eq_true, Bool.not_eq_true'] at hunused
    obtain ⟨hdeleted, hfree⟩ := hunused
    have hkept := any_keep_eq_false (db.snapshotGoes cutoff) hfree
    rw [modificationGoes, hdeleted, hkept]
    rfl

theorem menuItems_count_iff :
    db.menuItems.countP db.unusedMenuItem = db.menuItems.countP (db.menuItemGoes cutoff) ↔
      ∀ m ∈ db.menuItems, db.menuItemGoes cutoff m = true →
        (db.orderItems.any fun o => o.menuItemID == m.id) = false := by
  rw [countP_eq_countP_iff]
  · refine forall₃_congr fun m _ hgoes => ?_
    have hdeleted := (Bool.and_eq_true_iff.1 hgoes).1
    simp [unusedMenuItem, hdeleted]
  · intro m _ hunused
    simp only [unusedMenuItem, Bool.and_eq_true, Bool.not_eq_true'] at hunused
    obtain ⟨hdeleted, hfree⟩ := hunused
    have hkept := any_keep_eq_false (db.itemGoes cutoff) hfree
    rw [menuItemGoes, hdeleted, hkept]
    rfl

theorem categories_count_iff :
    db.menuCategories.countP db.unusedCategory = db.menuCategories.countP (db.categoryGoes cutoff) ↔
      ∀ c ∈ db.menuCategories, db.categoryGoes cutoff c = true →
        (db.menuItems.any fun m => m.categoryID == some c.id) = false := by
  rw [countP_eq_countP_iff]
  · refine forall₃_congr fun c _ hgoes => ?_
    have hdeleted := (Bool.and_eq_true_iff.1 hgoes).1
    simp [unusedCategory, hdeleted]
  · intro c _ hunused
    simp only [unusedCategory, Bool.and_eq_true, Bool.not_eq_true'] at hunused
    obtain ⟨hdeleted, hfree⟩ := hunused
    have hkept := any_keep_eq_false (db.menuItemGoes cutoff) hfree
    rw [categoryGoes, hdeleted, hkept]
    rfl

theorem restaurants_count_iff :
    db.restaurants.countP db.unusedRestaurant = db.restaurants.countP (db.restaurantGoes cutoff) ↔
      ∀ r ∈ db.restaurants, db.restaurantGoes cutoff r = true →
        (db.foodOrders.any fun o => o.restaurantID == r.id) = false ∧
          (db.menuItems.any fun m => m.restaurantID == r.id) = false ∧
          (db.menuCategories.any fun c => c.restaurantID == r.id) = false := by
  rw [countP_eq_countP_iff]
  · refine forall₃_congr fun r _ hgoes => ?_
    simp only [restaurantGoes, Bool.and_eq_true] at hgoes
    simp [unusedRestaurant, hgoes.1.1.1, and_assoc]
  · intro r _ hunused
    simp only [unusedRestaurant, Bool.and_eq_true, Bool.not_eq_true'] at hunused
    obtain ⟨⟨⟨hdeleted, horders⟩, hitems⟩, hcategories⟩ := hunused
    rw [restaurantGoes, hdeleted, any_keep_eq_false _ horders, any_keep_eq_false _ hitems,
      any_keep_eq_false _ hcategories]
    rfl

theorem images_count_iff :
    db.images.countP (db.unusedImage uploadedBefore) =
        db.images.countP (db.imageGoes cutoff uploadedBefore) ↔
      ∀ i ∈ db.images, db.imageGoes cutoff uploadedBefore i = true →
        (db.restaurants.any fun r => r.logoImageID == some i.id) = false ∧
          (db.menuItems.any fun m => m.imageID == some i.id) = false := by
  rw [countP_eq_countP_iff]
  · refine forall₃_congr fun i _ hgoes => ?_
    simp only [imageGoes, Bool.and_eq_true] at hgoes
    simp [unusedImage, hgoes.1.1]
  · intro i _ hunused
    simp only [unusedImage, Bool.and_eq_true, Bool.not_eq_true'] at hunused
    obtain ⟨⟨hold, hlogos⟩, hpictures⟩ := hunused
    rw [imageGoes, hold, any_keep_eq_false _ hlogos, any_keep_eq_false _ hpictures]
    rfl

end Db

/-! ## The reports -/

/-- The report of a dry run. -/
def Db.countedSteps (retention : Duration) (now : Time) (db : Db) : List CleanupStep :=
  (cleanupSteps retention now).map fun step => { object := step.object, count := step.count db }

theorem cleanup_dry (clock : String → Time) (retention : Duration) (now : Time) (db : Db) :
    cleanup clock retention now true db =
      { report := { steps := db.countedSteps retention now, dryRun := true }, db, err := none } := by
  have hrun : ∀ (steps : List CleanupStatement) (report : CleanupReport),
      runCleanupSteps clock true steps report db =
        { report := { report with
            steps := report.steps ++ steps.map fun step =>
              { object := step.object, count := step.count db } }
          db, err := none } := by
    intro steps
    induction steps with
    | nil => simp [runCleanupSteps]
    | cons step steps ih =>
      intro report
      simp only [runCleanupSteps, runCleanupStep, if_true, ih]
      simp
  exact hrun _ _

/-- **The dry run predicts the run** — each step's count, hence the totals — **exactly when nothing
is held by what is due to go.** -/
theorem cleanup_dryRun_steps_iff (clock clock' : String → Time) (retention : Duration) (now : Time)
    (db : Db) :
    (cleanup clock retention now true db).report.steps =
        (cleanup clock' retention now false db).report.steps ↔
      db.NothingHeldByWaste (pgTime (now - retention)) (pgTime (now - imageGrace)) := by
  rw [cleanup_dry, cleanup_real]
  simp only [Db.countedSteps, Db.removedSteps, cleanupSteps, List.map_cons, List.map_nil,
    List.cons.injEq, CleanupStep.mk.injEq, ordersStep, modificationsStep, menuItemsStep,
    categoriesStep, restaurantsStep, imagesStep, sessionsStep, apiTokensStep, true_and, and_true]
  rw [Db.modifications_count_iff, Db.menuItems_count_iff, Db.categories_count_iff,
    Db.restaurants_count_iff, Db.images_count_iff]
  constructor
  · rintro ⟨hmodifications, hitems, hcategories, hrestaurants, himages⟩
    exact ⟨hmodifications, hitems, hcategories, hrestaurants, himages⟩
  · rintro ⟨hmodifications, hitems, hcategories, hrestaurants, himages⟩
    exact ⟨hmodifications, hitems, hcategories, hrestaurants, himages⟩

/-- The dry run promises to leave the dish, and the run removes it. -/
theorem cleanup_dryRun_steps_ne :
    heldByOldOrder.Valid ∧
      (cleanup (fun _ => 0) (24 * Time.hour) (48 * Time.hour) true heldByOldOrder).report.steps ≠
        (cleanup (fun _ => 0) (24 * Time.hour) (48 * Time.hour) false heldByOldOrder).report.steps :=
  ⟨heldByOldOrder_valid, by decide⟩

end Doenerstag
