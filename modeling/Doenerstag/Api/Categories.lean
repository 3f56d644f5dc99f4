import Doenerstag.Api.DeletedCategory
import Doenerstag.Api.Availability
import Doenerstag.Db.AvailabilityFilters
import Doenerstag.Db.MenuCopy

/-!
# Editing categories (`internal/db/menu.go`, `internal/api/menu.go`)

The list of the categories, and the handler that renames or reorders one. Several such requests run side by
side; each that sets the sort order of a category of its own leaves the others' alone.

* `Db.listCategories`, `updateCategory`, `MenuHandlers.patchCategory` — the code.
* `Reordered` — the categories are those of the start, with other sort orders.
* `holds_patchCategory` — **a request that is answered has set its sort order, and one that fails has not.**
* `reorderings_run` — **so however several of them run, the sort orders are the ones sent by those that were
  answered.**
-/

namespace Doenerstag

open ReadCommitted Prog

/-! ## The database -/

namespace Db

/-- `ORDER BY sort_order, lower(name)` -/
def categoryOrder (rt : Runtime) (a b : MenuCategoryRow) : Bool :=
  a.sortOrder < b.sortOrder ||
    (a.sortOrder == b.sortOrder && rt.sortsBefore (rt.lower a.name) (rt.lower b.name))

/-- `WHERE restaurant_id = … AND deleted_at IS NULL` -/
def categoriesOf (db : Db) (restaurantID : UUID) : List MenuCategoryRow :=
  db.menuCategories.filter fun c => c.restaurantID == restaurantID && c.deletedAt.isNone

/-- `ListCategories` -/
def listCategories (db : Db) (rt : Runtime) (restaurantID : UUID) : List MenuCategoryRow :=
  sliceStable (categoryOrder rt) (db.categoriesOf restaurantID)

end Db

structure CategoryUpdate where
  name : Option String
  sortOrder : Option Int64
  deriving DecidableEq, Repr

def CategoryUpdate.empty : CategoryUpdate := { name := none, sortOrder := none }

def CategoryUpdate.apply (change : CategoryUpdate) (c : MenuCategoryRow) : MenuCategoryRow :=
  { c with name := change.name.getD c.name, sortOrder := change.sortOrder.getD c.sortOrder }

/-- `UPDATE menu_category SET … WHERE id = … AND deleted_at IS NULL RETURNING` -/
def Db.updateCategory (rt : Runtime) (id actor : UUID) (change : CategoryUpdate) (db : Db) :
    Except PgError (Db × Option MenuCategoryRow) :=
  if !change.sortOrder.all fitsInteger then .error .outOfRange
  else match db.menuCategories.find? fun c => c.id == id && c.deletedAt.isNone with
    | none => .ok (db, none)
    | some c =>
      let new := change.apply c
      if new.name.length < 1 || 200 < new.name.length then .error .checkViolation
      else if db.menuCategories.any fun p => p.id != id && p.restaurantID == new.restaurantID &&
          p.deletedAt.isNone && rt.lower p.name == rt.lower new.name then
        .error .uniqueViolation
      else if (db.userByID actor).isNone then .error .foreignKeyViolation
      else .ok (db.setMenuCategories (db.menuCategories.map fun p => if p.id == id then new else p), some new)

/-- What `UpdateCategory` makes of an error -/
def categoryError (e : StmtError PgError) : DbError :=
  match e with
  | .rejected .uniqueViolation => .nameTaken
  | .noRows => .notFound
  | _ => .failure

inductive UpdateCategoryStmt where
  | read
  | update
  deriving DecidableEq, Repr

/-- Without a field there is nothing to update. -/
def updateCategory (rt : Runtime) (id actor : UUID) (change : CategoryUpdate) :
    DbProgram UpdateCategoryStmt MenuCategoryRow :=
  if change = .empty then
    categoryByID .read id
  else
    (returning .update fun _ => Db.updateCategory rt id actor change).mapError categoryError

/-! ## The handler -/

structure CategoryBody where
  id : String
  name : String
  sortOrder : Int64
  availability : List AvailabilityBody
  deriving DecidableEq, Repr

def filterBodies (filters : List AvailabilityFilter) : List AvailabilityBody := filters.map publicAvailability

def publicCategory (c : MenuCategoryRow) (filters : List AvailabilityFilter) : CategoryBody :=
  { id := c.id.string, name := c.name, sortOrder := c.sortOrder, availability := filterBodies filters }

inductive PatchCategoryStmt where
  /-- `restaurantID` -/
  | restaurant (s : MenuStmt)
  /-- `lookupCategory` -/
  | lookup (s : DeleteCategoryStmt)
  | update (s : UpdateCategoryStmt)
  /-- `categoryFilters` -/
  | filters
  deriving DecidableEq, Repr

namespace MenuHandlers

variable (h : MenuHandlers)

structure PatchCategoryRequest where
  name : Option String
  sortOrder : Option Int64
  deriving DecidableEq, Repr

def validateCategoryPatch (body : PatchCategoryRequest) : Except ApiError CategoryUpdate := do
  let name ← body.name.mapM fun v => do
    validateMenuName (trimSpace v)
    pure (trimSpace v)
  return { name, sortOrder := body.sortOrder }

/-- `patchCategory` up to `UpdateCategory` -/
def acceptCategoryPatch (cid : String) (r : MenuRequest PatchCategoryRequest) :
    Handler PatchCategoryStmt (Principal × MenuCategoryRow × CategoryUpdate) := do
  let restaurantID ← (h.restaurantID r).within .restaurant
  let principal ← .ofExcept (requireAuthenticated r.principal)
  let category ← (h.lookupCategory cid restaurantID).within .lookup
  let body ← .ofExcept r.body
  let change ← .ofExcept (validateCategoryPatch body)
  pure (principal, category, change)

/-- A failure returns none: the category has been changed. -/
def categoryFilters (id : UUID) : Handler PatchCategoryStmt (List AvailabilityFilter) := do
  let filters ← (query .filters fun db => db.filtersForCategory h.rt id :
    Program PatchCategoryStmt Db Time (StmtError PgError) (List AvailabilityFilter)).option
  pure (filters.getD [])

def patchCategory (cid : String) (r : MenuRequest PatchCategoryRequest) :
    Handler PatchCategoryStmt CategoryBody := do
  let (principal, category, change) ← h.acceptCategoryPatch cid r
  let updated ← ((updateCategory h.rt category.id principal.userID change).within .update).mapError fun e =>
    if e = .nameTaken then .on codeNameExistsHere "name" else dbError e
  let filters ← h.categoryFilters updated.id
  pure (publicCategory updated filters)

theorem acceptCategoryPatch_reads (cid : String) (r : MenuRequest PatchCategoryRequest) :
    (h.acceptCategoryPatch cid r).Reads fun _ => True := by
  have hlookup : ∀ restaurantID, (h.lookupCategory cid restaurantID).Reads fun _ => True :=
    fun restaurantID => .bind (loadParam_reads fun id => (queryRow_reads trivial).mapError _) fun _ =>
      .bind (.require _ _) fun _ => .done _
  refine .bind (h.restaurantID_reads r).within fun restaurantID => .bind (.ofExcept _) fun _ => ?_
  refine .bind (hlookup restaurantID).within fun _ => .bind (.ofExcept _) fun _ => ?_
  exact .bind (.ofExcept _) fun _ => .done _

/-- The category is the one that the path names, and the change is what the body says. -/
theorem acceptCategoryPatch_returns {I : World Db Time → Prop} (cid : String)
    (r : MenuRequest PatchCategoryRequest) : (h.acceptCategoryPatch cid r).Returns I fun accepted =>
      h.rt.parseUUID cid = some accepted.2.1.id ∧
        ∃ body, r.body = .ok body ∧ validateCategoryPatch body = .ok accepted.2.2 := by
  have hlookup : ∀ restaurantID, (h.lookupCategory cid restaurantID).Returns I fun category =>
      h.rt.parseUUID cid = some category.id := by
    intro restaurantID
    refine .bind (A := fun category => h.rt.parseUUID cid = some category.id) ?_ fun category hparse =>
      .bind (.trivially _) fun _ _ => returns_done.mpr hparse
    unfold loadParam
    cases h.rt.parseUUID cid with
    | none => exact returns_fail _
    | some id =>
      refine .mapError (.mapError (queryRow_returns fun w category _ hcategory => ?_) _) _
      have hsel := List.find?_some hcategory
      simp only [Bool.and_eq_true, beq_iff_eq] at hsel
      rw [hsel.1]
  refine .bind (.trivially _) fun restaurantID _ => .bind (.trivially _) fun _ _ => ?_
  refine .bind ((hlookup restaurantID).within _) fun category hparse => ?_
  refine .bind (.ofExcept fun body hbody => hbody) fun body hbody => ?_
  refine .bind (.ofExcept fun change hchange => hchange) fun change hchange => ?_
  exact returns_done.mpr ⟨hparse, body, hbody, hchange⟩

end MenuHandlers

/-! ## Sort orders -/

/-- The sort order of a category -/
def Db.sortOrderOf (db : Db) (id : UUID) : Option Int64 :=
  (db.menuCategories.find? fun c => c.id == id).map MenuCategoryRow.sortOrder

/-- The categories of `base`, with other sort orders -/
def reorder (order : UUID → Int64) (base : List MenuCategoryRow) : List MenuCategoryRow :=
  base.map fun c => { c with sortOrder := order c.id }

/-- The sort orders are those of the start, but for the categories that requests are about. -/
def Reordered {ι : Type} (base : List MenuCategoryRow) (ids : ι → UUID) (w : World Db Time) : Prop :=
  ∃ order : UUID → Int64, w.db.menuCategories = reorder order base ∧
    ∀ c ∈ base, (∀ i, ids i ≠ c.id) → order c.id = c.sortOrder

section Orders

variable {base : List MenuCategoryRow} {order : UUID → Int64} {db : Db} {id : UUID}

theorem reorder_ids : (reorder order base).map MenuCategoryRow.id = base.map MenuCategoryRow.id := by
  unfold reorder
  rw [List.map_map]
  rfl

theorem sortOrderOf_reorder (h : db.menuCategories = reorder order base) (id : UUID) :
    db.sortOrderOf id = (base.find? fun c => c.id == id).map fun _ => order id := by
  unfold Db.sortOrderOf
  rw [h, reorder, List.find?_map, Option.map_map]
  refine Option.map_congr fun c hc => ?_
  have hsel := List.find?_some hc
  have hid : c.id = id := beq_iff_eq.mp hsel
  exact congrArg order hid

theorem sortOrderOf_mem (hkeys : (db.menuCategories.map MenuCategoryRow.id).Nodup) {c : MenuCategoryRow}
    (hc : c ∈ db.menuCategories) : db.sortOrderOf c.id = some c.sortOrder := by
  unfold Db.sortOrderOf
  rw [Tables.find?_key hkeys hc]
  rfl

/-- At the start, each has its own. -/
theorem reordered_refl {ι : Type} {ids : ι → UUID} {w : World Db Time}
    (hkeys : (w.db.menuCategories.map MenuCategoryRow.id).Nodup) : Reordered w.db.menuCategories ids w := by
  have horder : ∀ c ∈ w.db.menuCategories, (w.db.sortOrderOf c.id).getD 0 = c.sortOrder := by
    intro c hc
    rw [sortOrderOf_mem hkeys hc]
    rfl
  refine ⟨fun id => (w.db.sortOrderOf id).getD 0, ?_, fun c hc _ => horder c hc⟩
  unfold reorder
  rw [List.map_congr_left fun c hc => congrArg (fun so => { c with sortOrder := so }) (horder c hc)]
  exact (List.map_id' w.db.menuCategories).symm

/-- The row of a category, with its sort order changed. -/
theorem map_reorder {so : Int64} {new : MenuCategoryRow} {c : MenuCategoryRow}
    (hkeys : (base.map MenuCategoryRow.id).Nodup) (hc : c ∈ reorder order base) (hid : c.id = id)
    (hnew : new = { c with sortOrder := so }) :
    ((reorder order base).map fun p => if p.id == id then new else p) =
      reorder (Function.update order id so) base := by
  unfold reorder at hc ⊢
  obtain ⟨b, hb, rfl⟩ := List.mem_map.mp hc
  rw [List.map_map]
  refine List.map_congr_left fun p hp => ?_
  by_cases hp' : p.id = id
  · obtain rfl : p = b := List.inj_on_of_nodup_map hkeys hp hb (hp'.trans hid.symm)
    simp [hp', hnew]
  · simp [hp']

/-- An update that returns a row has set the sort order that it was to set. -/
theorem updateCategory_reorder {rt : Runtime} {actor : UUID} {so : Int64} {db' : Db} {row : MenuCategoryRow}
    (h : db.menuCategories = reorder order base) (hkeys : (base.map MenuCategoryRow.id).Nodup)
    (hu : Db.updateCategory rt id actor { name := none, sortOrder := some so } db = .ok (db', some row)) :
    db'.menuCategories = reorder (Function.update order id so) base := by
  unfold Db.updateCategory at hu
  cases hfind : db.menuCategories.find? fun c => c.id == id && c.deletedAt.isNone with
  | none =>
    simp only [hfind] at hu
    split_ifs at hu
    cases hu
  | some c =>
    simp only [hfind] at hu
    split_ifs at hu
    obtain ⟨rfl, -⟩ := Prod.ext_iff.mp (Except.ok.inj hu)
    have hsel := List.find?_some hfind
    simp only [Bool.and_eq_true, beq_iff_eq] at hsel
    rw [Db.setMenuCategories_menuCategories, h]
    exact map_reorder hkeys (h ▸ List.mem_of_find?_eq_some hfind) hsel.1 rfl

end Orders

/-! ## Side by side -/

namespace Reordering

variable {ι : Type} {ids : ι → UUID} {sent : ι → Int64} {base : List MenuCategoryRow} {h : MenuHandlers} {i : ι}
  {w : World Db Time}

/-- Nobody sets the sort order of another one's category. -/
def Waits (ids : ι → UUID) (i : ι) (_ : PatchCategoryStmt) (w w' : World Db Time) : Prop :=
  w'.db.sortOrderOf (ids i) = w.db.sortOrderOf (ids i)

def Writes (ids : ι → UUID) (i : ι) (_ : PatchCategoryStmt) (w w' : World Db Time) : Prop :=
  ∀ id, id ≠ ids i → w'.db.sortOrderOf id = w.db.sortOrderOf id

/-- The category has the sort order that was sent, or that of the start. -/
def HasOrder (base : List MenuCategoryRow) (id : UUID) (sent : Option Int64) (w : World Db Time) : Prop :=
  ∀ c ∈ base, c.id = id → w.db.sortOrderOf id = some (sent.getD c.sortOrder)

theorem HasOrder.waits {id : UUID} {so : Option Int64} {w' : World Db Time} (horder : HasOrder base id so w)
    (hsame : w'.db.sortOrderOf id = w.db.sortOrderOf id) : HasOrder base id so w' :=
  fun c hc hid => hsame.trans (horder c hc hid)

/-- The update of a request: it has been written when it is answered, and only then. -/
theorem holds_updateCategory (hkeys : (base.map MenuCategoryRow.id).Nodup) {actor : UUID}
    (hunsent : HasOrder base (ids i) none w) :
    ((updateCategory h.rt (ids i) actor { name := none, sortOrder := some (sent i) }).within
      PatchCategoryStmt.update).Holds (Reordered base ids) (Waits ids i) (Writes ids i)
      (fun r w => HasOrder base (ids i) (if r.isOk then some (sent i) else none) w) w := by
  have hsome : ({ name := none, sortOrder := some (sent i) } : CategoryUpdate) ≠ .empty := by
    intro hempty
    cases congrArg CategoryUpdate.sortOrder hempty
  refine holds_within ?_
  unfold updateCategory
  rw [if_neg hsome]
  refine holds_mapError (holds_write fun w' hwait hI e => ?_)
  have hunsent' : HasOrder base (ids i) none w' :=
    star_keeps (F := HasOrder base (ids i) none) (fun _ _ hR hF => hF.waits hR) hwait hunsent
  cases hreturned : e.returned (Db.updateCategory h.rt (ids i) actor
      { name := none, sortOrder := some (sent i) } w'.db) with
  | error x => exact ⟨hI, fun _ _ => rfl, hunsent'⟩
  | ok r =>
    obtain ⟨order, horder, hothers⟩ := hI
    have hafter := updateCategory_reorder horder hkeys (Outcome.returned_eq_ok hreturned)
    refine ⟨⟨_, hafter, fun c hc hnone => ?_⟩, fun id hid => ?_, fun c hc hid => ?_⟩
    · rw [Function.update_of_ne (hnone i).symm]
      exact hothers c hc hnone
    · rw [sortOrderOf_reorder horder]
      refine (sortOrderOf_reorder hafter id).trans ?_
      rw [Function.update_of_ne hid]
    · have hfound : (base.find? fun c => c.id == ids i).isSome :=
        List.find?_isSome.mpr ⟨c, hc, beq_iff_eq.mpr hid⟩
      obtain ⟨c', hc'⟩ := Option.isSome_iff_exists.mp hfound
      refine (sortOrderOf_reorder hafter (ids i)).trans ?_
      rw [hc', Function.update_self]
      rfl

/-- A request that fails has not set the sort order, and one that is answered has. -/
def Ended (base : List MenuCategoryRow) (ids : ι → UUID) (sent : ι → Int64) (i : ι)
    (r : Except ApiError CategoryBody) (w : World Db Time) : Prop :=
  HasOrder base (ids i) (if r.isOk then some (sent i) else none) w

/-- What is only read leaves a sort order as it is. -/
theorem holds_reading {α χ : Type} {so : Option Int64} {p : Program PatchCategoryStmt Db Time χ α}
    (hp : p.Reads fun _ => True) (horder : HasOrder base (ids i) so w) :
    p.Holds (Reordered base ids) (Waits ids i) (Writes ids i) (fun _ w => HasOrder base (ids i) so w) w :=
  hp.holds_under (fun _ _ _ _ hR hF => hF.waits hR) (fun _ _ _ _ _ _ => rfl) horder

/-- The filters of the answer are read without failing. -/
theorem holds_categoryFilters {id : UUID} {so : Option Int64} (horder : HasOrder base (ids i) so w) :
    (h.categoryFilters id).Holds (Reordered base ids) (Waits ids i) (Writes ids i)
      (fun r w => (∃ filters, r = .ok filters) ∧ HasOrder base (ids i) so w) w := by
  refine holds_bind (fun _ w => HasOrder base (ids i) so w) ?_ fun filters w horder =>
    holds_done.mpr ⟨⟨_, rfl⟩, horder⟩
  refine holds_handle (fun _ w => HasOrder base (ids i) so w) ?_ fun x w horder => holds_done.mpr horder
  refine holds_bind (fun _ w => HasOrder base (ids i) so w)
    ((holds_reading (query_reads trivial) horder).mono ?_) fun filters w horder => holds_done.mpr horder
  rintro (x | filters) w horder
  · exact horder
  · exact horder

/-- **A request that sets a sort order holds.** -/
theorem holds_patchCategory (hkeys : (base.map MenuCategoryRow.id).Nodup) {cid : String}
    {r : MenuRequest MenuHandlers.PatchCategoryRequest} (hparse : h.rt.parseUUID cid = some (ids i))
    (hbody : r.body = .ok { name := none, sortOrder := some (sent i) }) (hunsent : HasOrder base (ids i) none w) :
    (h.patchCategory cid r).Holds (Reordered base ids) (Waits ids i) (Writes ids i) (Ended base ids sent i) w := by
  have haccept := (holds_reading (h.acceptCategoryPatch_reads cid r) hunsent).returns
    (h.acceptCategoryPatch_returns cid r)
  refine holds_bind (fun accepted w => HasOrder base (ids i) none w ∧ accepted.2.1.id = ids i ∧
    accepted.2.2 = { name := none, sortOrder := some (sent i) }) (haccept.mono ?_) ?_
  · rintro (x | accepted) w ⟨horder, hreturned⟩
    · exact horder
    · obtain ⟨hid, body, hdecoded, hchange⟩ := hreturned accepted rfl
      rw [hbody] at hdecoded
      cases hdecoded
      exact ⟨horder, Option.some.inj (hid.symm.trans hparse), (Except.ok.inj hchange).symm⟩
  rintro ⟨principal, category, change⟩ w ⟨horder, hid, hchange⟩
  dsimp only at hid hchange ⊢
  rw [hid, hchange]
  refine holds_bind (fun _ w => HasOrder base (ids i) (some (sent i)) w)
    (holds_mapError ((holds_updateCategory hkeys horder).mono ?_)) fun updated w hsent => ?_
  · rintro (x | updated) w hended
    · exact hended
    · exact hended
  · refine holds_bind (fun _ w => HasOrder base (ids i) (some (sent i)) w)
      ((holds_categoryFilters hsent).mono ?_) fun filters w hsent => holds_done.mpr hsent
    rintro r w ⟨⟨filters, rfl⟩, horder⟩
    exact horder

/-- The requests at their start -/
def arrivedReorderings (h : MenuHandlers) (cids : ι → String)
    (requests : ι → MenuRequest MenuHandlers.PatchCategoryRequest) (w : World Db Time) :
    Config ι PatchCategoryStmt Outcome (World Db Time) ApiError CategoryBody where
  state := w
  procs := fun i => h.patchCategory (cids i) (requests i)

/-- **When requests about different categories have run side by side**, the categories are those of the start,
with the sort orders that were sent by those that were answered. -/
theorem reorderings_run [DecidableEq ι] (hdistinct : Function.Injective ids)
    (hkeys : (w.db.menuCategories.map MenuCategoryRow.id).Nodup) {cids : ι → String}
    {requests : ι → MenuRequest MenuHandlers.PatchCategoryRequest}
    (hparse : ∀ i, h.rt.parseUUID (cids i) = some (ids i))
    (hbody : ∀ i, (requests i).body = .ok { name := none, sortOrder := some (sent i) })
    {c : Config ι PatchCategoryStmt Outcome (World Db Time) ApiError CategoryBody}
    (hrun : Run (fun _ _ => False) (fun _ _ _ => True) (arrivedReorderings h cids requests w) c) :
    Reordered w.db.menuCategories ids c.state ∧ ∀ i r, (c.procs i).result = some r →
      HasOrder w.db.menuCategories (ids i) (if r.isOk then some (sent i) else none) c.state := by
  have hensures : (arrivedReorderings h cids requests w).Ensures (Reordered w.db.menuCategories ids)
      (Waits ids) (Writes ids) (Ended w.db.menuCategories ids sent) := by
    refine ⟨reordered_refl hkeys, fun i => holds_patchCategory hkeys (hparse i) (hbody i) fun c hc hid => ?_⟩
    rw [← hid]
    exact sortOrderOf_mem hkeys hc
  have hend := hensures.run (fun _ _ henv => henv.elim) (fun j w₁ w₂ _ hmove => ?_) hrun
  · exact ⟨hend.inv, fun i r hr => hend.result hr⟩
  · obtain henv | ⟨i, l, hij, hwrites⟩ := hmove
    · exact henv.elim
    · have hsame := hwrites (ids j) (hdistinct.ne hij.symm)
      exact ⟨fun _ _ => hsame, fun _ hended => hended.waits hsame⟩

end Reordering

end Doenerstag
