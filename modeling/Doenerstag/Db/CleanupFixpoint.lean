import Doenerstag.Db.CleanupRun

/-!
# One run is enough

The tables a run leaves hold exactly the rows that do not go, so a second run finds nothing to
remove: what may go in the final state is what goes, and that is gone. The one predicate that a
later step could still feed is that of the modifications, since removing a dish clears the snapshots
that name its modifications; but those modifications went with the dish.

* `Db.Valid.afterAPITokens` — a run keeps the schema.
* `cleanup_fixpoint` — **a run never violates a foreign key, and a second one removes nothing.**
-/

namespace Doenerstag

open Tables

namespace Db

section Tables

variable (cutoff : Time) (clock : String → Time) (uploadedBefore now : Time) (db : Db)

/-! ## The tables a run leaves -/

theorem final_foodOrders : (db.afterAPITokens cutoff clock uploadedBefore now).foodOrders =
    keep (expiredOrder cutoff) db.foodOrders := by
  simp [afterAPITokens, afterSessions, afterImages, afterRestaurants_eq,
    afterCategories_foodOrders]

theorem final_orderItems : (db.afterAPITokens cutoff clock uploadedBefore now).orderItems =
    keep (db.itemGoes cutoff) db.orderItems := by
  simp [afterAPITokens, afterSessions, afterImages, afterRestaurants_eq,
    afterCategories_orderItems]

theorem final_menuItems : (db.afterAPITokens cutoff clock uploadedBefore now).menuItems =
    keep (db.menuItemGoes cutoff) db.menuItems := by
  simp [afterAPITokens, afterSessions, afterImages_menuItems]

theorem final_menuCategories : (db.afterAPITokens cutoff clock uploadedBefore now).menuCategories =
    keep (db.categoryGoes cutoff) db.menuCategories := by
  simp [afterAPITokens, afterSessions, afterImages, afterRestaurants_eq,
    afterCategories_menuCategories]

theorem final_restaurants : (db.afterAPITokens cutoff clock uploadedBefore now).restaurants =
    keep (db.restaurantGoes cutoff) db.restaurants := by
  simp [afterAPITokens, afterSessions, afterImages_restaurants]

theorem final_images : (db.afterAPITokens cutoff clock uploadedBefore now).images =
    keep (db.imageGoes cutoff uploadedBefore) db.images := by
  simp [afterAPITokens, afterSessions, afterImages, afterRestaurants_images]

theorem final_sessions : (db.afterAPITokens cutoff clock uploadedBefore now).sessions =
    keep (staleSession (pgTime now) (pgTime (now - idleCleanupWindow))) db.sessions := by
  simp [afterAPITokens, afterSessions, afterImages, afterRestaurants_sessions]

theorem final_apiTokens : (db.afterAPITokens cutoff clock uploadedBefore now).apiTokens =
    keep (expiredAPIToken (pgTime now)) db.apiTokens := by
  simp [afterAPITokens, afterSessions, afterImages, afterRestaurants_apiTokens]

/-- The modification goes with its dish. -/
def goesWithDish : MenuItemModificationRow → Bool :=
  dangling MenuItemModificationRow.menuItem (gone MenuItemRow.id (db.menuItemGoes cutoff) db.menuItems)

theorem final_menuItemModifications :
    (db.afterAPITokens cutoff clock uploadedBefore now).menuItemModifications =
      keep (db.goesWithDish cutoff) (keep (db.modificationGoes cutoff) db.menuItemModifications) := by
  simp [afterAPITokens, afterSessions, afterImages, afterRestaurants_eq, afterCategories,
    afterMenuItems, afterModifications, afterOrders, goesWithDish]

theorem final_orderItemModifications :
    (db.afterAPITokens cutoff clock uploadedBefore now).orderItemModifications =
      setNull OrderItemModificationRow.modificationID OrderItemModificationRow.forget
        (gone MenuItemModificationRow.id (db.goesWithDish cutoff)
          (keep (db.modificationGoes cutoff) db.menuItemModifications))
        (keep (db.snapshotGoes cutoff) db.orderItemModifications) := by
  have hsnapshots := db.afterModifications_orderItemModifications cutoff
  simp only [afterAPITokens, afterSessions, afterImages, afterRestaurants_eq, afterCategories,
    afterMenuItems, deleteAPITokens_orderItemModifications, deleteSessions_orderItemModifications,
    deleteImages_orderItemModifications, dropRestaurants_orderItemModifications,
    deleteAvailabilityFilters_orderItemModifications, deleteMenuCategories_orderItemModifications,
    cascadeMenuItems_orderItemModifications, deleteMenuItemModifications_orderItemModifications,
    hsnapshots]
  simp [afterModifications, afterOrders, goesWithDish]

/-! ## What may go in the final state -/

theorem final_unusedMenuItem :
    (db.afterAPITokens cutoff clock uploadedBefore now).unusedMenuItem = db.menuItemGoes cutoff := by
  funext m
  rw [unusedMenuItem, final_orderItems, menuItemGoes]

theorem final_unusedCategory :
    (db.afterAPITokens cutoff clock uploadedBefore now).unusedCategory = db.categoryGoes cutoff := by
  funext c
  rw [unusedCategory, final_menuItems, categoryGoes]

theorem final_unusedRestaurant :
    (db.afterAPITokens cutoff clock uploadedBefore now).unusedRestaurant =
      db.restaurantGoes cutoff := by
  funext r
  rw [unusedRestaurant, final_foodOrders, final_menuItems, final_menuCategories, restaurantGoes]

theorem final_unusedImage :
    (db.afterAPITokens cutoff clock uploadedBefore now).unusedImage uploadedBefore =
      db.imageGoes cutoff uploadedBefore := by
  funext i
  rw [unusedImage, final_restaurants, final_menuItems, imageGoes]

/-- A soft-deleted modification that is left is still named by a snapshot that is left: the clearing
spared the reference, because the modification did not go with its dish. -/
theorem final_unusedModification (hkeys : db.Keys) (m : MenuItemModificationRow)
    (hm : m ∈ (db.afterAPITokens cutoff clock uploadedBefore now).menuItemModifications) :
    (db.afterAPITokens cutoff clock uploadedBefore now).unusedModification m = false := by
  rw [final_menuItemModifications, mem_keep] at hm
  obtain ⟨hm, hdish⟩ := hm
  have hstays := (mem_keep.1 hm).2
  rw [unusedModification, Bool.and_eq_false_imp]
  intro hdeleted
  rw [modificationGoes, hdeleted, Bool.true_and, Bool.not_eq_false', List.any_eq_true] at hstays
  obtain ⟨o, ho, hnames⟩ := hstays
  have hnames : o.modificationID = some m.id := by simpa using hnames
  have hspared : dangling OrderItemModificationRow.modificationID
      (gone MenuItemModificationRow.id (db.goesWithDish cutoff)
        (keep (db.modificationGoes cutoff) db.menuItemModifications)) o = false := by
    rw [dangling_eq_false]
    intro k hk
    refine gone_eq_false.2 fun m' hm' hkey => ?_
    -- the key names one row
    have hsame : m' = m := by
      refine List.inj_on_of_nodup_map hkeys.menuItemModifications (mem_keep.1 hm').1
        (mem_keep.1 hm).1 ?_
      rw [hkey]
      exact Option.some.inj (hk.symm.trans hnames)
    exact hsame ▸ hdish
  rw [Bool.not_eq_false', List.any_eq_true, final_orderItemModifications]
  refine ⟨o, List.mem_map.2 ⟨o, ho, ?_⟩, by simp [hnames]⟩
  simp [hspared]

/-! ## The schema -/

variable {db} in
theorem Valid.afterAPITokens (h : db.Valid) :
    (db.afterAPITokens cutoff clock uploadedBefore now).Valid := by
  have hmodifications : (db.afterModifications cutoff).Valid :=
    (h.deleteFoodOrders _).deleteMenuItemModifications _
  have hitems : (db.afterMenuItems cutoff).Valid :=
    hmodifications.deleteMenuItems (db.deleteMenuItems_afterModifications cutoff)
  have hcategories : (db.afterCategories cutoff clock).Valid := hitems.deleteMenuCategories _ _
  have hrestaurants : (db.afterRestaurants cutoff clock).Valid :=
    hcategories.deleteRestaurants (db.deleteRestaurants_afterCategories cutoff clock)
  exact ((hrestaurants.deleteImages _ _).deleteSessions _).deleteAPITokens _

end Tables

end Db

/-! ## The second run -/

/-- Statements that find nothing leave the state as it is. -/
def Idle (clock : String → Time) (steps : List CleanupStatement) (db : Db) : Prop :=
  ∀ step ∈ steps, step.delete (clock step.object) db = .ok (0, db)

theorem Idle.sweeps {clock : String → Time} {steps : List CleanupStatement} {db : Db}
    (h : Idle clock steps db) :
    Sweeps clock steps db (steps.map fun step => { object := step.object, count := 0 }) db := by
  induction steps with
  | nil => exact .nil
  | cons step steps ih =>
    obtain ⟨hstep, hrest⟩ := List.forall_mem_cons.1 h
    exact .cons hstep (ih hrest)

theorem final_idle (clock clock' : String → Time) (retention : Duration) (now : Time) {db : Db}
    (hkeys : db.Keys) :
    Idle clock' (cleanupSteps retention now)
      (db.afterAPITokens (pgTime (now - retention)) clock (pgTime (now - imageGrace)) now) := by
  set cutoff := pgTime (now - retention)
  set uploadedBefore := pgTime (now - imageGrace)
  set final := db.afterAPITokens cutoff clock uploadedBefore now with hfinal
  have horders : ∀ o ∈ final.foodOrders, Db.expiredOrder cutoff o = false := fun o ho =>
    (mem_keep.1 (db.final_foodOrders cutoff clock uploadedBefore now ▸ ho)).2
  have hmodifications : ∀ m ∈ final.menuItemModifications, final.unusedModification m = false :=
    db.final_unusedModification cutoff clock uploadedBefore now hkeys
  have hitems : ∀ m ∈ final.menuItems, final.unusedMenuItem m = false := fun m hm => by
    rw [hfinal, Db.final_unusedMenuItem]
    exact (mem_keep.1 (db.final_menuItems cutoff clock uploadedBefore now ▸ hm)).2
  have hcategories : ∀ c ∈ final.menuCategories, final.unusedCategory c = false := fun c hc => by
    rw [hfinal, Db.final_unusedCategory]
    exact (mem_keep.1 (db.final_menuCategories cutoff clock uploadedBefore now ▸ hc)).2
  have hrestaurants : ∀ r ∈ final.restaurants, final.unusedRestaurant r = false := fun r hr => by
    rw [hfinal, Db.final_unusedRestaurant]
    exact (mem_keep.1 (db.final_restaurants cutoff clock uploadedBefore now ▸ hr)).2
  have himages : ∀ i ∈ final.images, final.unusedImage uploadedBefore i = false := fun i hi => by
    rw [hfinal, Db.final_unusedImage]
    exact (mem_keep.1 (db.final_images cutoff clock uploadedBefore now ▸ hi)).2
  have hsessions : ∀ s ∈ final.sessions,
      Db.staleSession (pgTime now) (pgTime (now - idleCleanupWindow)) s = false := fun s hs =>
    (mem_keep.1 (db.final_sessions cutoff clock uploadedBefore now ▸ hs)).2
  have htokens : ∀ t ∈ final.apiTokens, Db.expiredAPIToken (pgTime now) t = false := fun t ht =>
    (mem_keep.1 (db.final_apiTokens cutoff clock uploadedBefore now ▸ ht)).2
  have hcount : ∀ {α : Type} {p : α → Bool} {rows : List α}, (∀ x ∈ rows, p x = false) →
      rows.countP p = 0 := fun h => List.countP_eq_zero.2 fun x hx => by simp [h x hx]
  intro step hstep
  simp only [cleanupSteps, List.mem_cons, List.not_mem_nil, or_false] at hstep
  rcases hstep with rfl | rfl | rfl | rfl | rfl | rfl | rfl | rfl
  · change (ordersStep cutoff).delete _ final = _
    simp only [ordersStep, hcount horders, final.deleteFoodOrders_eq_self horders]
  · simp only [modificationsStep, hcount hmodifications,
      final.deleteMenuItemModifications_eq_self hmodifications]
  · simp only [menuItemsStep, hcount hitems, final.deleteMenuItems_eq_self hitems, Except.map]
  · simp only [categoriesStep, hcount hcategories,
      final.deleteMenuCategories_eq_self _ hcategories]
  · simp only [restaurantsStep, hcount hrestaurants,
      final.deleteRestaurants_eq_self _ hrestaurants, Except.map]
  · change (imagesStep uploadedBefore).delete _ final = _
    simp only [imagesStep, hcount himages, final.deleteImages_eq_self _ himages]
  · simp only [sessionsStep, hcount hsessions, final.deleteSessions_eq_self hsessions]
  · simp only [apiTokensStep, hcount htokens, final.deleteAPITokens_eq_self htokens]

/-- A real run on the state that a real run left. -/
def secondRun (clock clock' : String → Time) (retention : Duration) (now : Time) (db : Db) :
    CleanupRun :=
  cleanup clock' retention now false (cleanup clock retention now false db).db

theorem secondRun_eq (clock clock' : String → Time) (retention : Duration) (now : Time) {db : Db}
    (hkeys : db.Keys) :
    secondRun clock clock' retention now db =
      { report :=
          { steps := (cleanupSteps retention now).map fun step =>
              { object := step.object, count := 0 }
            dryRun := false }
        db := (cleanup clock retention now false db).db
        err := none } := by
  rw [secondRun, cleanup_real clock]
  exact (final_idle clock clock' retention now hkeys).sweeps.run _

/-- **One run reaches the fixpoint.** A real run completes, no step violating a foreign key, and
leaves a state that satisfies the schema; a second run with the same retention and now removes
nothing in any step and changes nothing. -/
theorem cleanup_fixpoint (clock clock' : String → Time) (retention : Duration) (now : Time) (db : Db)
    (h : db.Valid) :
    (cleanup clock retention now false db).err = none ∧
      (cleanup clock retention now false db).db.Valid ∧
      (secondRun clock clock' retention now db).err = none ∧
      (secondRun clock clock' retention now db).db = (cleanup clock retention now false db).db ∧
      (secondRun clock clock' retention now db).report.steps.length = 8 ∧
      ∀ step ∈ (secondRun clock clock' retention now db).report.steps, step.count = 0 := by
  rw [secondRun_eq clock clock' retention now h.keys]
  refine ⟨?_, ?_, rfl, rfl, rfl, ?_⟩
  · rw [cleanup_real]
  · rw [cleanup_real]
    exact h.afterAPITokens _ _ _ _
  · intro step hstep
    obtain ⟨_, _, rfl⟩ := List.mem_map.1 hstep
    rfl

/-- The run that removes the old order removes its dish with it, and the next one nothing. -/
theorem cleanup_fixpoint_heldByOldOrder :
    (cleanup (fun _ => 0) (24 * Time.hour) (48 * Time.hour) false heldByOldOrder).db.menuItems = [] ∧
      (secondRun (fun _ => 0) (fun _ => 0) (24 * Time.hour) (48 * Time.hour) heldByOldOrder).db =
        (cleanup (fun _ => 0) (24 * Time.hour) (48 * Time.hour) false heldByOldOrder).db :=
  have hruns := cleanup_fixpoint (fun _ => 0) (fun _ => 0) (24 * Time.hour) (48 * Time.hour)
    heldByOldOrder heldByOldOrder_valid
  ⟨by decide, hruns.2.2.2.1⟩

end Doenerstag
